import ProtocolProxy.Pool
import ProtocolProxy.Slots

/-!
# Capacity and ownership of the pool

Every step replaces the stage of one task (`Moves`), so permits and clients are counted by what the
two stages have of them.  The number of idle clients and busy tasks grows only when a task finds no
idle client, and then every busy task has a permit (`Counts.popEmpty`).

A client's number says what became of it: nobody else has it (`Owned`), so what is logged about one
client leaves what is known of the others (`Clean`).
-/

namespace ProtocolProxy

namespace Pool

open Machine Slots

variable {s s' : State} {size : ℕ}

/-- What a step does. -/
inductive Moves (s : State) : State → Prop
  | acquire : Moves s { s with tasks := s.tasks ++ [.waiting] }
  | permit (tasks : List Stage) : 0 < s.available → Replaces s.tasks .waiting .permitted tasks →
      Moves s { s with available := s.available - 1, tasks := tasks }
  | timeout (tasks : List Stage) : Replaces s.tasks .waiting (.dialing false) tasks →
      Moves s { s with tasks := tasks }
  | leave (tasks : List Stage) : Replaces s.tasks .waiting .over tasks →
      Moves s { s with tasks := tasks }
  | reuse (tasks : List Stage) (c : Client) (rest : List Client) (ready : Bool) :
      s.idle = c :: rest → c.isHealthy ready → Replaces s.tasks .permitted (.holding true c) tasks →
      Moves s { s with
        idle := rest, tasks := tasks, log := s.log ++ [.reused c.id c.healthy ready] }
  | discard (tasks : List Stage) (c : Client) (rest : List Client) : s.idle = c :: rest →
      Replaces s.tasks .permitted (.dialing true) tasks →
      Moves s { s with idle := rest, tasks := tasks }
  | popEmpty (tasks : List Stage) : s.idle = [] →
      Replaces s.tasks .permitted (.dialing true) tasks → Moves s { s with tasks := tasks }
  | connected (tasks : List Stage) (permit : Bool) :
      Replaces s.tasks (.dialing permit) (.holding permit ⟨s.dialed, s.endpoint, true⟩) tasks →
      Moves s { s with
        tasks := tasks, dialed := s.dialed + 1, log := s.log ++ [.dialed s.dialed permit] }
  | failed (tasks : List Stage) (permit : Bool) : Replaces s.tasks (.dialing permit) .over tasks →
      Moves s { s with available := s.available + permit.toNat, tasks := tasks }
  | invalidate (tasks : List Stage) (permit : Bool) (c : Client) :
      Replaces s.tasks (.holding permit c) (.holding permit { c with healthy := false }) tasks →
      Moves s { s with tasks := tasks, log := s.log ++ [.invalidated c.id] }
  | keep (tasks : List Stage) (c : Client) : c.healthy = true →
      Replaces s.tasks (.holding true c) (.releasing true) tasks →
      Moves s { s with
        idle := s.idle ++ [c], tasks := tasks, log := s.log ++ [.released c.id true] }
  | lose (tasks : List Stage) (permit : Bool) (c : Client) (ready : Bool) :
      Replaces s.tasks (.holding permit c) (.releasing permit) tasks →
      Moves s { s with tasks := tasks, log := s.log ++ [.released c.id ready] }
  | returnPermit (tasks : List Stage) (permit : Bool) :
      Replaces s.tasks (.releasing permit) .over tasks →
      Moves s { s with available := s.available + permit.toNat, tasks := tasks }

theorem moves_of_resume {i : ℕ} {stage : Stage} {move : Move} (hi : s.tasks[i]? = some stage)
    (h : s.resume i stage move = some s') : Moves s s' := by
  have hr : ∀ stage', Replaces s.tasks stage stage' (s.tasks.set i stage') := replaces_set hi
  unfold State.resume at h
  split at h
  · split_ifs at h with hpos
    obtain rfl := Option.some.inj h
    exact .permit _ hpos (hr _)
  · obtain rfl := Option.some.inj h
    exact .timeout _ (hr _)
  · obtain rfl := Option.some.inj h
    exact .leave _ (hr _)
  · split at h
    · next c rest hidle =>
      split_ifs at h with hhealthy
      · obtain rfl := Option.some.inj h
        exact .reuse _ c rest _ hidle hhealthy (hr _)
      · obtain rfl := Option.some.inj h
        exact .discard _ c rest hidle (hr _)
    · next hidle =>
      obtain rfl := Option.some.inj h
      exact .popEmpty _ hidle (hr _)
  · obtain rfl := Option.some.inj h
    exact .connected _ _ (hr _)
  · obtain rfl := Option.some.inj h
    exact .failed _ _ (hr _)
  · obtain rfl := Option.some.inj h
    exact .failed _ _ (hr _)
  · obtain rfl := Option.some.inj h
    exact .invalidate _ _ _ (hr _)
  · next permit c ready =>
    obtain rfl := Option.some.inj h
    unfold State.release
    split_ifs with hpermit hhealthy
    · subst hpermit
      simp only [Client.isHealthy, Bool.and_eq_true] at hhealthy
      obtain ⟨hc, rfl⟩ := hhealthy
      exact .keep _ c hc (hr _)
    · exact .lose _ _ c ready (hr _)
    · exact .lose _ _ c ready (hr _)
  · obtain rfl := Option.some.inj h
    exact .returnPermit _ _ (hr _)
  · cases h

theorem moves_of_step {a : Action} (h : step s a = some s') : Moves s s' := by
  cases a with
  | acquire =>
    obtain rfl := Option.some.inj h
    exact .acquire
  | resume i move =>
    obtain ⟨stage, hi, hresume⟩ := Option.bind_eq_some_iff.1 h
    exact moves_of_resume hi hresume

/-! ## Permits -/

/-- The permits and the clients they stand for, with `idle` clients in the deque. -/
structure Counts (size available idle : ℕ) (tasks : List Stage) : Prop where
  permits : available + tasks.countP Stage.hasPermit = size
  bound : idle + tasks.countP Stage.isBusy ≤ size

variable {available available' idle idle' : ℕ} {tasks tasks' : List Stage} {t t' : Stage}

theorem Counts.replace (h : Counts size available idle tasks) (hr : Replaces tasks t t' tasks')
    (hpermit : available' + t'.hasPermit.toNat = available + t.hasPermit.toNat)
    (hbusy : idle' + t'.isBusy.toNat ≤ idle + t.isBusy.toNat) :
    Counts size available' idle' tasks' where
  permits := by
    have hcount := hr.countP Stage.hasPermit
    have hsum := h.permits
    omega
  bound := by
    have hcount := hr.countP Stage.isBusy
    have hsum := h.bound
    omega

theorem hasPermit_of_isBusy (t : Stage) (h : t.isBusy = true) : t.hasPermit = true := by
  cases t <;> simp_all [Stage.isBusy, Stage.hasPermit]

/-- With no idle client the busy tasks are bounded by their permits. -/
theorem Counts.popEmpty (h : Counts size available 0 tasks)
    (hr : Replaces tasks .permitted (.dialing true) tasks') : Counts size available 0 tasks' := by
  have hcount := hr.countP Stage.hasPermit
  have hmono : tasks'.countP Stage.isBusy ≤ tasks'.countP Stage.hasPermit :=
    List.countP_mono_left fun t _ => hasPermit_of_isBusy t
  have hsum := h.permits
  simp only [Stage.hasPermit] at hcount
  exact ⟨by omega, by omega⟩

theorem Moves.counts (h : Moves s s') (hs : Counts size s.available s.idle.length s.tasks) :
    Counts size s'.available s'.idle.length s'.tasks := by
  cases h with
  | acquire =>
    refine ⟨?_, ?_⟩
    · simpa [List.countP_append, Stage.hasPermit] using hs.permits
    · simpa [List.countP_append, Stage.isBusy] using hs.bound
  | permit tasks hpos hr =>
    refine hs.replace hr ?_ le_rfl
    simp only [Stage.hasPermit, Bool.toNat_true, Bool.toNat_false]
    omega
  | timeout tasks hr => exact hs.replace hr rfl le_rfl
  | leave tasks hr => exact hs.replace hr rfl le_rfl
  | reuse tasks c rest ready hidle hhealthy hr =>
    rw [hidle] at hs
    exact hs.replace hr rfl le_rfl
  | discard tasks c rest hidle hr =>
    rw [hidle] at hs
    exact hs.replace hr rfl le_rfl
  | popEmpty tasks hidle hr =>
    simp only [hidle, List.length_nil] at hs ⊢
    exact hs.popEmpty hr
  | connected tasks permit hr => exact hs.replace hr rfl le_rfl
  | failed tasks permit hr => exact hs.replace hr rfl (Nat.le_add_right _ _)
  | invalidate tasks permit c hr => exact hs.replace hr rfl le_rfl
  | keep tasks c hc hr =>
    refine hs.replace hr rfl ?_
    simp [Stage.isBusy]
  | lose tasks permit c ready hr => exact hs.replace hr rfl (Nat.le_add_right _ _)
  | returnPermit tasks permit hr => exact hs.replace hr rfl le_rfl

/-! ## Owners -/

/-- How many owners the client with number `id` has. -/
def owners (idle : List Client) (tasks : List Stage) (id : ℕ) : ℕ :=
  (idle.map Client.id).count id + (tasks.filterMap Stage.heldId).count id

structure Owned (idle : List Client) (tasks : List Stage) (dialed : ℕ) : Prop where
  le_one : ∀ id, owners idle tasks id ≤ 1
  fresh : ∀ id, dialed ≤ id → owners idle tasks id = 0

variable {clients clients' : List Client} {dialed : ℕ}

theorem Owned.replace (h : Owned clients tasks dialed) (hr : Replaces tasks t t' tasks')
    (hle : ∀ id, (clients'.map Client.id).count id + t'.heldId.toList.count id
      ≤ (clients.map Client.id).count id + t.heldId.toList.count id) :
    Owned clients' tasks' dialed := by
  have howners : ∀ id, owners clients' tasks' id ≤ owners clients tasks id := by
    intro id
    have hcount := hr.count_filterMap Stage.heldId id
    have hid := hle id
    unfold owners
    omega
  exact ⟨fun id => (howners id).trans (h.le_one id),
    fun id hid => Nat.eq_zero_of_le_zero ((howners id).trans (le_of_eq (h.fresh id hid)))⟩

theorem Owned.connected {permit : Bool} {endpoint : Text} (h : Owned clients tasks dialed)
    (hr : Replaces tasks (.dialing permit) (.holding permit ⟨dialed, endpoint, true⟩) tasks') :
    Owned clients tasks' (dialed + 1) := by
  have howners : ∀ id, owners clients tasks' id
      = owners clients tasks id + if id = dialed then 1 else 0 := by
    intro id
    have hcount := hr.count_filterMap Stage.heldId id
    unfold owners
    by_cases hid : id = dialed
    · subst hid
      simp [Stage.heldId] at hcount ⊢
      omega
    · simp [Stage.heldId, hid, Ne.symm hid] at hcount ⊢
      omega
  refine ⟨fun id => ?_, fun id hid => ?_⟩
  · rw [howners]
    split_ifs with hid
    · rw [h.fresh id (le_of_eq hid.symm)]
    · exact h.le_one id
  · rw [howners, if_neg (by omega), h.fresh id (by omega)]

theorem Moves.owned (h : Moves s s') (hs : Owned s.idle s.tasks s.dialed) :
    Owned s'.idle s'.tasks s'.dialed := by
  cases h with
  | acquire =>
    have howners : ∀ id, owners s.idle (s.tasks ++ [.waiting]) id = owners s.idle s.tasks id := by
      intro id
      have hnone : [Stage.waiting].filterMap Stage.heldId = [] := rfl
      simp [owners, List.filterMap_append, hnone]
    exact ⟨fun id => (howners id).trans_le (hs.le_one id),
      fun id hid => (howners id).trans (hs.fresh id hid)⟩
  | permit tasks hpos hr => exact hs.replace hr fun id => le_rfl
  | timeout tasks hr => exact hs.replace hr fun id => le_rfl
  | leave tasks hr => exact hs.replace hr fun id => le_rfl
  | reuse tasks c rest ready hidle hhealthy hr =>
    rw [hidle] at hs
    refine hs.replace hr fun id => ?_
    simp [Stage.heldId, List.count_cons]
  | discard tasks c rest hidle hr =>
    rw [hidle] at hs
    refine hs.replace hr fun id => ?_
    simp [Stage.heldId, List.count_cons]
  | popEmpty tasks hidle hr => exact hs.replace hr fun id => le_rfl
  | connected tasks permit hr => exact hs.connected hr
  | failed tasks permit hr => exact hs.replace hr fun id => le_rfl
  | invalidate tasks permit c hr => exact hs.replace hr fun id => le_rfl
  | keep tasks c hc hr =>
    refine hs.replace hr fun id => ?_
    simp [Stage.heldId]
  | lose tasks permit c ready hr =>
    refine hs.replace hr fun id => ?_
    simp [Stage.heldId]
  | returnPermit tasks permit hr => exact hs.replace hr fun id => le_rfl

theorem Owned.lt_of_idle (h : Owned clients tasks dialed) {c : Client} (hc : c ∈ clients) :
    c.id < dialed := by
  by_contra hle
  have hzero := h.fresh c.id (by omega)
  have hpos : 0 < (clients.map Client.id).count c.id :=
    List.count_pos_iff.2 (List.mem_map_of_mem hc)
  unfold owners at hzero
  omega

theorem count_held_pos {permit : Bool} {c : Client} (hc : .holding permit c ∈ tasks) :
    0 < (tasks.filterMap Stage.heldId).count c.id :=
  List.count_pos_iff.2 (List.mem_filterMap.2 ⟨_, hc, rfl⟩)

theorem Owned.lt_of_held (h : Owned clients tasks dialed) {permit : Bool} {c : Client}
    (hc : .holding permit c ∈ tasks) : c.id < dialed := by
  by_contra hle
  have hzero := h.fresh c.id (by omega)
  have hpos := count_held_pos hc
  unfold owners at hzero
  omega

/-- No idle client has the number of one that is held. -/
theorem Owned.idle_ne (h : Owned clients tasks dialed) {permit : Bool} {c d : Client}
    (hc : .holding permit c ∈ tasks) (hd : d ∈ clients) : d.id ≠ c.id := by
  intro heq
  have hone := h.le_one c.id
  have hheld := count_held_pos hc
  have hidle : 0 < (clients.map Client.id).count c.id :=
    List.count_pos_iff.2 (heq ▸ List.mem_map_of_mem hd)
  unfold owners at hone
  omega

theorem Owned.count_held_le (h : Owned clients tasks dialed) (id : ℕ) :
    (tasks.filterMap Stage.heldId).count id ≤ 1 := by
  have hone := h.le_one id
  unfold owners at hone
  omega

/-- Whoever holds a client after its holder has moved on is another task with another client. -/
theorem Owned.held_ne (h : Owned clients tasks dialed) {permit : Bool} {c d : Client} {q : Bool}
    (hr : Replaces tasks (.holding permit c) t' tasks') (hd : .holding q d ∈ tasks') :
    .holding q d = t' ∨ .holding q d ∈ tasks ∧ d.id ≠ c.id := by
  rcases hr.mem_other (f := Stage.heldId) rfl (h.count_held_le c.id) hd with heq | ⟨hmem, hne⟩
  · exact .inl heq
  · exact .inr ⟨hmem, fun heq => hne (congrArg some heq)⟩

/-! ## What is logged about a client -/

def Event.id : Event → ℕ
  | .dialed id _ | .reused id _ _ | .invalidated id | .released id _ => id

/-- Nothing forbids to keep the client with number `id`, unless it was invalidated. -/
def Keepable (log : List Event) (id : ℕ) : Prop := .dialed id false ∉ log ∧ .released id false ∉ log

structure Clean (clients : List Client) (tasks : List Stage) (log : List Event) (dialed : ℕ) :
    Prop where
  old : ∀ e ∈ log, e.id < dialed
  idle : ∀ c ∈ clients, Keepable log c.id ∧ .invalidated c.id ∉ log
  held : ∀ c, .holding true c ∈ tasks →
    Keepable log c.id ∧ (c.healthy = true → .invalidated c.id ∉ log)
  reused : ∀ id healthy ready, .reused id healthy ready ∈ log → healthy = true ∧ ready = true

variable {log : List Event} {e : Event} {id : ℕ}

/-- The event says nothing against keeping the client with number `id`. -/
def Event.Spares (e : Event) (id : ℕ) : Prop :=
  e ≠ .dialed id false ∧ e ≠ .released id false ∧ e ≠ .invalidated id

theorem spares_of_ne (hid : id ≠ e.id) : e.Spares id :=
  ⟨fun he => hid (by rw [he]; rfl), fun he => hid (by rw [he]; rfl),
    fun he => hid (by rw [he]; rfl)⟩

theorem Keepable.append (h : Keepable log id) (hdialed : e ≠ .dialed id false)
    (hreleased : e ≠ .released id false) : Keepable (log ++ [e]) id := by
  simp only [Keepable, List.mem_append, List.mem_singleton, not_or]
  exact ⟨⟨h.1, hdialed.symm⟩, h.2, hreleased.symm⟩

theorem invalidated_notMem_append (h : .invalidated id ∉ log) (he : e ≠ .invalidated id) :
    .invalidated id ∉ log ++ [e] := by
  simp only [List.mem_append, List.mem_singleton, not_or]
  exact ⟨h, he.symm⟩

theorem idle_append (h : Keepable log id ∧ .invalidated id ∉ log) (he : e.Spares id) :
    Keepable (log ++ [e]) id ∧ .invalidated id ∉ log ++ [e] :=
  ⟨h.1.append he.1 he.2.1, invalidated_notMem_append h.2 he.2.2⟩

theorem held_append {healthy : Bool}
    (h : Keepable log id ∧ (healthy = true → .invalidated id ∉ log)) (he : e.Spares id) :
    Keepable (log ++ [e]) id ∧ (healthy = true → .invalidated id ∉ log ++ [e]) :=
  ⟨h.1.append he.1 he.2.1, fun hhealthy => invalidated_notMem_append (h.2 hhealthy) he.2.2⟩

theorem keepable_of_old (h : ∀ e ∈ log, e.id < dialed) : Keepable log dialed :=
  ⟨fun he => absurd (h _ he) (lt_irrefl _), fun he => absurd (h _ he) (lt_irrefl _)⟩

/-- A step that logs nothing and leaves at most the clients there were. -/
theorem Clean.replace (h : Clean clients tasks log dialed) (hr : Replaces tasks t t' tasks')
    (hclients : ∀ c ∈ clients', c ∈ clients) (ht' : t'.heldId = none) :
    Clean clients' tasks' log dialed where
  old := h.old
  idle c hc := h.idle c (hclients c hc)
  held c hc := by
    rcases hr.mem hc with heq | hmem
    · rw [← heq] at ht'
      cases ht'
    · exact h.held c hmem
  reused := h.reused

theorem old_append (h : ∀ e ∈ log, e.id < dialed) (he : e.id < dialed) :
    ∀ e' ∈ log ++ [e], e'.id < dialed := by
  intro e' he'
  rcases List.mem_append.1 he' with he' | he'
  · exact h e' he'
  · rw [List.mem_singleton.1 he']
    exact he

theorem reused_append (h : ∀ id healthy ready, .reused id healthy ready ∈ log →
      healthy = true ∧ ready = true) (he : ∀ id healthy ready, e ≠ .reused id healthy ready) :
    ∀ id healthy ready, .reused id healthy ready ∈ log ++ [e] → healthy = true ∧ ready = true := by
  intro id healthy ready hmem
  rcases List.mem_append.1 hmem with hmem | hmem
  · exact h id healthy ready hmem
  · exact absurd (List.mem_singleton.1 hmem).symm (he id healthy ready)

theorem Moves.clean (h : Moves s s') (hown : Owned s.idle s.tasks s.dialed)
    (hs : Clean s.idle s.tasks s.log s.dialed) : Clean s'.idle s'.tasks s'.log s'.dialed := by
  cases h with
  | acquire => exact ⟨hs.old, hs.idle, fun c hc => hs.held c (by simpa using hc), hs.reused⟩
  | permit tasks hpos hr => exact hs.replace hr (fun c hc => hc) rfl
  | timeout tasks hr => exact hs.replace hr (fun c hc => hc) rfl
  | leave tasks hr => exact hs.replace hr (fun c hc => hc) rfl
  | reuse tasks c rest ready hidle hhealthy hr =>
    have hc : c ∈ s.idle := by simp [hidle]
    have hrest : ∀ d ∈ rest, d ∈ s.idle := fun d hd => by simp [hidle, hd]
    have hspares : ∀ id, (Event.reused c.id c.healthy ready).Spares id :=
      fun id => ⟨by simp, by simp, by simp⟩
    simp only [Client.isHealthy, Bool.and_eq_true] at hhealthy
    refine ⟨old_append hs.old (hown.lt_of_idle hc),
      fun d hd => idle_append (hs.idle d (hrest d hd)) (hspares _), fun d hd => ?_, ?_⟩
    · rcases hr.mem hd with heq | hmem
      · cases heq
        obtain ⟨hkeep, hvalid⟩ := idle_append (hs.idle c hc) (hspares _)
        exact ⟨hkeep, fun _ => hvalid⟩
      · exact held_append (hs.held d hmem) (hspares _)
    · intro id healthy ready' hmem
      rcases List.mem_append.1 hmem with hmem | hmem
      · exact hs.reused id healthy ready' hmem
      · cases List.mem_singleton.1 hmem
        exact hhealthy
  | discard tasks c rest hidle hr =>
    exact hs.replace hr (fun d hd => by simp [hidle, hd]) rfl
  | popEmpty tasks hidle hr => exact hs.replace hr (fun c hc => hc) rfl
  | connected tasks permit hr =>
    have hold : ∀ e ∈ s.log, e.id < s.dialed + 1 := fun e he => Nat.lt_succ_of_lt (hs.old e he)
    refine ⟨old_append hold (Nat.lt_succ_self _),
      fun d hd => idle_append (hs.idle d hd) (spares_of_ne (hown.lt_of_idle hd).ne),
      fun d hd => ?_, reused_append hs.reused (by simp)⟩
    rcases hr.mem hd with heq | hmem
    · -- the new client, about which nothing was logged before
      cases heq
      refine ⟨(keepable_of_old hs.old).append (by simp) (by simp), fun _ => ?_⟩
      exact invalidated_notMem_append (fun he => absurd (hs.old _ he) (lt_irrefl _)) (by simp)
    · exact held_append (hs.held d hmem) (spares_of_ne (hown.lt_of_held hmem).ne)
  | failed tasks permit hr => exact hs.replace hr (fun c hc => hc) rfl
  | invalidate tasks permit c hr =>
    have hc := hr.mem_old
    refine ⟨old_append hs.old (hown.lt_of_held hc),
      fun d hd => idle_append (hs.idle d hd) (spares_of_ne (hown.idle_ne hc hd)),
      fun d hd => ?_, reused_append hs.reused (by simp)⟩
    rcases hown.held_ne hr hd with heq | ⟨hmem, hne⟩
    · cases heq
      exact ⟨(hs.held c hc).1.append (by simp) (by simp), by simp⟩
    · exact held_append (hs.held d hmem) (spares_of_ne hne)
  | keep tasks c hhealthy hr =>
    have hc := hr.mem_old
    have hspares : ∀ id, (Event.released c.id true).Spares id :=
      fun id => ⟨by simp, by simp, by simp⟩
    refine ⟨old_append hs.old (hown.lt_of_held hc), fun d hd => ?_, fun d hd => ?_,
      reused_append hs.reused (by simp)⟩
    · rcases List.mem_append.1 hd with hd | hd
      · exact idle_append (hs.idle d hd) (hspares _)
      · obtain rfl := List.mem_singleton.1 hd
        obtain ⟨hkeep, hvalid⟩ := held_append (hs.held d hc) (hspares _)
        exact ⟨hkeep, hvalid hhealthy⟩
    · rcases hr.mem hd with heq | hmem
      · cases heq
      · exact held_append (hs.held d hmem) (hspares _)
  | lose tasks permit c ready hr =>
    have hc := hr.mem_old
    refine ⟨old_append hs.old (hown.lt_of_held hc),
      fun d hd => idle_append (hs.idle d hd) (spares_of_ne (hown.idle_ne hc hd)),
      fun d hd => ?_, reused_append hs.reused (by simp)⟩
    rcases hown.held_ne hr hd with heq | ⟨hmem, hne⟩
    · cases heq
    · exact held_append (hs.held d hmem) (spares_of_ne hne)
  | returnPermit tasks permit hr => exact hs.replace hr (fun c hc => hc) rfl

/-! ## Addresses -/

/-- The pool's clients were dialed at its own address. -/
structure DialedHere (s : State) : Prop where
  idle : ∀ c ∈ s.idle, c.endpoint = s.endpoint
  held : ∀ permit c, .holding permit c ∈ s.tasks → c.endpoint = s.endpoint

theorem Moves.endpoint_eq (h : Moves s s') : s'.endpoint = s.endpoint := by
  cases h <;> rfl

/-- A step after which no client is owned that was not, but for the one that the task that moves may
have. -/
theorem DialedHere.replace (h : DialedHere s) (hr : Replaces s.tasks t t' s'.tasks)
    (hendpoint : s'.endpoint = s.endpoint) (hidle : ∀ c ∈ s'.idle, c.endpoint = s.endpoint)
    (ht' : ∀ permit c, t' = .holding permit c → c.endpoint = s.endpoint) : DialedHere s' where
  idle c hc := by
    rw [hendpoint]
    exact hidle c hc
  held permit c hc := by
    rw [hendpoint]
    rcases hr.mem hc with heq | hmem
    · exact ht' permit c heq.symm
    · exact h.held permit c hmem

theorem Moves.dialedHere (h : Moves s s') (hs : DialedHere s) : DialedHere s' := by
  cases h with
  | acquire => exact ⟨hs.idle, fun permit c hc => hs.held permit c (by simpa using hc)⟩
  | permit tasks hpos hr => exact hs.replace hr rfl hs.idle nofun
  | timeout tasks hr => exact hs.replace hr rfl hs.idle nofun
  | leave tasks hr => exact hs.replace hr rfl hs.idle nofun
  | reuse tasks c rest ready hidle hhealthy hr =>
    refine hs.replace hr rfl (fun d hd => hs.idle d (by simp [hidle, hd])) ?_
    rintro permit d heq
    cases heq
    exact hs.idle c (by simp [hidle])
  | discard tasks c rest hidle hr =>
    exact hs.replace hr rfl (fun d hd => hs.idle d (by simp [hidle, hd])) nofun
  | popEmpty tasks hidle hr => exact hs.replace hr rfl hs.idle nofun
  | connected tasks permit hr =>
    refine hs.replace hr rfl hs.idle ?_
    rintro permit d heq
    cases heq
    rfl
  | failed tasks permit hr => exact hs.replace hr rfl hs.idle nofun
  | invalidate tasks permit c hr =>
    refine hs.replace hr rfl hs.idle ?_
    rintro permit d heq
    cases heq
    exact hs.held _ c hr.mem_old
  | keep tasks c hc hr =>
    refine hs.replace hr rfl (fun d hd => ?_) nofun
    rcases List.mem_append.1 hd with hd | hd
    · exact hs.idle d hd
    · rw [List.mem_singleton.1 hd]
      exact hs.held true c hr.mem_old
  | lose tasks permit c ready hr => exact hs.replace hr rfl hs.idle nofun
  | returnPermit tasks permit hr => exact hs.replace hr rfl hs.idle nofun

theorem dialedHere_new (endpoint : Text) (size : ℕ) : DialedHere (new endpoint size) :=
  ⟨by simp [new], by simp [new]⟩

/-! ## Whole runs -/

structure Inv (size : ℕ) (s : State) : Prop where
  counts : Counts size s.available s.idle.length s.tasks
  owned : Owned s.idle s.tasks s.dialed
  clean : Clean s.idle s.tasks s.log s.dialed

theorem inv_new (endpoint : Text) (size : ℕ) : Inv size (new endpoint size) where
  counts := ⟨rfl, Nat.zero_le _⟩
  owned := ⟨fun _ => Nat.zero_le _, fun _ _ => rfl⟩
  clean := ⟨by simp [new], by simp [new], by simp [new], by simp [new]⟩

theorem step_inv (a : Action) (hs : Inv size s) (h : step s a = some s') : Inv size s' :=
  have hm := moves_of_step h
  ⟨hm.counts hs.counts, hm.owned hs.owned, hm.clean hs.owned hs.clean⟩

theorem Inv.sound (h : Inv size s) : Sound size s where
  permits := h.counts.permits
  bound := h.counts.bound
  owned := by
    rw [List.nodup_iff_count_le_one]
    intro id
    rw [List.count_append]
    exact h.owned.le_one id
  kept c hc := by
    obtain ⟨⟨hdialed, hreleased⟩, hvalid⟩ := h.clean.idle c hc
    exact ⟨hdialed, hvalid, hreleased⟩
  reused := h.clean.reused

/-- Along every run a pool keeps its permits, its bound and the owners of its clients. -/
theorem sound_of_run (endpoint : Text) (size : ℕ) {as : List Action} {s : State}
    (h : run step (new endpoint size) as = some s) : Sound size s :=
  (run_inv (fun _ a _ hs hstep => step_inv a hs hstep) (inv_new endpoint size) h).sound

/-- Two tasks on a pool of one: the first one's client is kept, the second one, which got no permit,
dials its own and loses it, and a third one reuses the first client. -/
theorem sound_of_run_three_tasks : ∃ s,
    run step (new "b:80".toList 1) [.acquire, .resume 0 .permit, .resume 0 (.pop true), .acquire,
      .resume 1 .timeout, .resume 0 .connected, .resume 1 .connected, .resume 1 (.drop true),
      .resume 0 (.drop true), .resume 0 .returnPermit, .resume 1 .returnPermit, .acquire,
      .resume 2 .permit, .resume 2 (.pop true)] = some s
    ∧ s.idle = [] ∧ s.tasks = [.over, .over, .holding true ⟨0, "b:80".toList, true⟩]
    ∧ Sound 1 s := by
  have hrun : ∃ s, run step (new "b:80".toList 1) [.acquire, .resume 0 .permit,
      .resume 0 (.pop true), .acquire, .resume 1 .timeout, .resume 0 .connected,
      .resume 1 .connected, .resume 1 (.drop true), .resume 0 (.drop true), .resume 0 .returnPermit,
      .resume 1 .returnPermit, .acquire, .resume 2 .permit, .resume 2 (.pop true)] = some s
    ∧ s.idle = [] ∧ s.tasks = [.over, .over, .holding true ⟨0, "b:80".toList, true⟩] :=
    ⟨_, rfl, rfl, rfl⟩
  obtain ⟨s, hs, hidle, htasks⟩ := hrun
  exact ⟨s, hs, hidle, htasks, sound_of_run _ _ hs⟩

end Pool

end ProtocolProxy

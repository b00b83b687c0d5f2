import ProtocolProxy.PhpCoroutine
import ProtocolProxy.Proofs.PhpTcp

/-!
# The first packet in the two PHP TCP servers

The event-driven server sends what `transformInitialData` made of the first packet: every coroutine
that waits to send carries what its packet is to be sent as (`Carries`), also after the client was
closed.  The coroutine server sends the packet it has read (`Coroutine.Inv`) and never fetches the
transformed one from the adapter, so the two agree where the transformer changes nothing.
-/

namespace ProtocolProxy

namespace PhpTcp

open Machine

variable {ρ : Type} {u : Setup ρ} {s s' : State ρ} {i : ℕ} {data : Bytes} {pc : Pc}

/-! ## The event-driven server -/

/-- What a coroutine is about to send. -/
def carried : Pc → Option Bytes
  | .sendingFirst _ data => some data
  | .sending _ data => some data
  | _ => none

def Carries (u : Setup ρ) (s : State ρ) : Prop :=
  ∀ (i : ℕ) pc data, s.tasks[i]? = some pc → carried pc = some data →
    (expected u s.result s.arrived)[i]? = some data

theorem carries_singleton (htasks : s.tasks = [pc]) (hpc : carried pc = none) : Carries u s := by
  intro i pc' data hi hdata
  rw [htasks] at hi
  obtain ⟨-, rfl⟩ := eq_of_getElem?_singleton hi
  simp [hpc] at hdata

theorem Carries.wrote {k : ℕ} {ok : Bool} (h : Carries u s) (hwrote : Wrote s s' i k data ok) :
    Carries u s' := by
  intro j pc data' hj hdata
  rw [hwrote.result, hwrote.arrived]
  rw [hwrote.tasks, List.getElem?_set] at hj
  split_ifs at hj with hij
  · obtain rfl := Option.some.inj hj
    simp [carried] at hdata
  · exact h j pc data' hj hdata

theorem onClose_frame (u : Setup ρ) (s : State ρ) : (s.onClose u).tasks = s.tasks
    ∧ (s.onClose u).arrived = s.arrived ∧ (s.onClose u).result = s.result
    ∧ (s.onClose u).sent = s.sent := by
  unfold State.onClose
  simp only
  rcases s.connection with _ | connection
  · exact ⟨rfl, rfl, rfl, rfl⟩
  · simp only
    split_ifs
    · exact ⟨rfl, rfl, rfl, rfl⟩
    · exact ⟨rfl, rfl, rfl, rfl⟩

theorem length_expected (u : Setup ρ) (result : Option ρ) (arrived : List Bytes) :
    (expected u result arrived).length = arrived.length := by
  cases arrived with
  | nil => rfl
  | cons first rest => rfl

theorem Carries.start (h : Carries u s) (harrived : s.arrived ≠ [])
    (hlength : s.tasks.length = s.arrived.length) (data : Bytes) :
    Carries u ({ s with arrived := s.arrived ++ [data] }.start (.sending 0 data)) := by
  intro j pc data' hj hdata
  have hj' : (s.tasks ++ [Pc.sending 0 data])[j]? = some pc := hj
  show (expected u s.result (s.arrived ++ [data]))[j]? = some data'
  have hlen := length_expected u s.result s.arrived
  rw [expected_append u s.result harrived]
  by_cases hlt : j < s.tasks.length
  · rw [List.getElem?_append_left hlt] at hj'
    rw [List.getElem?_append_left (by omega)]
    exact h j pc data' hj' hdata
  · rw [List.getElem?_append_right (by omega)] at hj'
    obtain ⟨hzero, rfl⟩ := eq_of_getElem?_singleton hj'
    obtain rfl : data = data' := Option.some.inj hdata
    rw [List.getElem?_append_right (by omega), hlen, ← hlength, hzero]
    rfl

/-- A packet that arrives in turn is the first one, or is sent to the backend. -/
theorem receive_cases (h : Inv u s) (hturn : InTurn s (.receive data))
    (hclosing : s.closing = false) :
    ((s.receive u data).sent = [] ∧ ∃ pc, (s.receive u data).tasks = [pc] ∧ carried pc = none)
    ∨ s.arrived ≠ [] ∧ s.tasks.length = s.arrived.length
      ∧ s.receive u data = { s with arrived := s.arrived ++ [data] }.start (.sending 0 data) := by
  cases h with
  | idle hs =>
    subst hs
    left
    rcases hregistered : u.registered with _ | _
    · simp only [State.receive, new, hregistered]
      exact ⟨rfl, .done, rfl, rfl⟩
    · simp only [State.receive, new, hregistered]
      exact ⟨rfl, .routing data, rfl, rfl⟩
  | routing first hconnection _ htasks =>
    rcases hturn with hnil | ⟨⟨k, hk⟩, -⟩
    · simp [htasks] at hnil
    · simp [hconnection] at hk
  | dialing first initialData result hconnection htasks =>
    rcases hturn with hnil | ⟨⟨k, hk⟩, -⟩
    · simp [htasks] at hnil
    · simp [hconnection] at hk
  | serving n hconnection _ harrived horder =>
    refine .inr ⟨harrived, ?_, receive_backed hconnection (horder.sockmap_inactive hturn harrived)⟩
    rw [horder.length_eq, length_expected]
  | closed hclosed =>
    rw [hclosing] at hclosed
    cases hclosed

theorem resume_routing {input : Input ρ} (hclient : s.client = none)
    (htasks : s.tasks = [.routing data]) (hsent : s.sent = [])
    (hs' : s.resume u 0 (.routing data) input = some s') :
    s'.sent = [] ∧ ∃ pc', s'.tasks = [pc']
      ∧ ∀ data, carried pc' = some data → expected u s'.result s'.arrived = [data] := by
  rcases input with ⟨_ | result⟩ | ok | ⟨ok, activated, exported⟩
  · obtain rfl := Option.some.inj hs'
    exact ⟨hsent, .done, by simp [State.put, State.close, htasks], by simp [carried]⟩
  · simp only [State.resume, if_pos, hclient] at hs'
    rcases htransform : u.transformInitialData data result with _ | initialData
    · rw [htransform] at hs'
      obtain rfl := Option.some.inj hs'
      exact ⟨hsent, .done, by simp [State.put, State.close, htasks], by simp [carried]⟩
    · rw [htransform] at hs'
      obtain rfl := Option.some.inj hs'
      exact ⟨hsent, .dialing s.dialed data initialData, by simp [State.put, htasks],
        by simp [carried]⟩
  · simp [State.resume] at hs'
  · simp [State.resume] at hs'

theorem resume_dialing {input : Input ρ} {initialData : Bytes} {result : ρ}
    (htasks : s.tasks = [.dialing 0 data initialData]) (hsent : s.sent = [])
    (harrived : s.arrived = [data]) (hresult : s.result = some result)
    (htransform : u.transformInitialData data result = some initialData)
    (hs' : s.resume u 0 (.dialing 0 data initialData) input = some s') :
    s'.sent = [] ∧ ∃ pc', s'.tasks = [pc']
      ∧ ∀ data, carried pc' = some data → expected u s'.result s'.arrived = [data] := by
  rcases input with result' | ok | ⟨ok, activated, exported⟩
  · simp [State.resume] at hs'
  · simp only [State.resume] at hs'
    cases ok
    · obtain rfl := Option.some.inj hs'
      exact ⟨hsent, .done, by simp [State.put, State.close, htasks], by simp [carried]⟩
    · obtain rfl := Option.some.inj hs'
      refine ⟨hsent, .sendingFirst 0 initialData, ?_, fun data' hdata => ?_⟩
      · simp [State.backed, State.put, htasks]
      · obtain rfl : initialData = data' := Option.some.inj hdata
        simp [State.backed, State.put, expected, hresult, harrived, htransform]
  · simp [State.resume] at hs'

theorem resume_sends {input : Input ρ} (hpc : Sends pc)
    (hs' : s.resume u i pc input = some s') :
    ∃ k data ok, carried pc = some data ∧ Wrote s s' i k data ok
      ∧ (ok = true → ∃ activated exported, input = .wrote true activated exported) := by
  rcases hpc with rfl | ⟨data, rfl | rfl⟩
  · simp [resume_done] at hs'
  · obtain ⟨ok, activated, exported, rfl, hwrote⟩ := wrote_first hs'
    exact ⟨0, data, ok, rfl, hwrote, fun hok => ⟨activated, exported, by rw [hok]⟩⟩
  · obtain ⟨ok, activated, exported, rfl, hwrote, -⟩ := wrote_sending hs'
    exact ⟨0, data, ok, rfl, hwrote, fun hok => ⟨activated, exported, by rw [hok]⟩⟩

/-- A coroutine that goes on is the first one and has sent nothing, or it ends its send. -/
theorem resume_cases {input : Input ρ} (h : Inv u s) (hgone : s.gone = false)
    (hpc : s.tasks[i]? = some pc) (hs' : s.resume u i pc input = some s') :
    (s'.sent = [] ∧ ∃ pc', s'.tasks = [pc']
      ∧ ∀ data, carried pc' = some data → expected u s'.result s'.arrived = [data])
    ∨ ∃ k data ok, carried pc = some data ∧ Wrote s s' i k data ok
      ∧ (ok = true → ∃ activated exported, input = .wrote true activated exported) := by
  cases h with
  | idle hs =>
    subst hs
    simp [new] at hpc
  | routing data _ hclient htasks _ hsent =>
    left
    rw [htasks] at hpc
    obtain ⟨rfl, rfl⟩ := eq_of_getElem?_singleton hpc
    exact resume_routing hclient htasks hsent hs'
  | dialing data initialData result _ htasks _ hsent harrived hresult htransform =>
    left
    rw [htasks] at hpc
    obtain ⟨rfl, rfl⟩ := eq_of_getElem?_singleton hpc
    exact resume_dialing htasks hsent harrived hresult htransform hs'
  | serving n _ _ _ horder =>
    exact .inr (resume_sends (horder.sends pc (List.mem_of_getElem? hpc)) hs')
  | closed _ _ _ htasks =>
    rcases htasks with hgone' | htasks
    · rw [hgone] at hgone'
      cases hgone'
    · exact .inr (resume_sends (htasks pc (List.mem_of_getElem? hpc)) hs')

theorem step_carries (a : Action ρ) (hinv : Inv u s) (h : Carries u s) (hturn : InTurn s a)
    (hs' : step u s a = some s') : Carries u s' := by
  have hgone : s.gone = false := by
    by_contra hgone
    simp [step, hgone] at hs'
  simp only [step, hgone, Bool.false_eq_true, if_false] at hs'
  cases a with
  | receive data =>
    simp only at hs'
    split_ifs at hs' with hclosing
    obtain rfl := Option.some.inj hs'
    rcases receive_cases hinv hturn (by simpa using hclosing) with
      ⟨-, pc, htasks, hpc⟩ | ⟨harrived, hlength, heq⟩
    · exact carries_singleton htasks hpc
    · rw [heq]
      exact h.start harrived hlength data
  | resume i input =>
    obtain ⟨pc, hpc, hresume⟩ := Option.bind_eq_some_iff.1 hs'
    rcases resume_cases hinv hgone hpc hresume with
      ⟨-, pc', htasks, hcarried⟩ | ⟨k, data, ok, -, hwrote, -⟩
    · intro j pc'' data hj hdata
      rw [htasks] at hj
      obtain ⟨rfl, rfl⟩ := eq_of_getElem?_singleton hj
      rw [hcarried data hdata]
      rfl
    · exact h.wrote hwrote
  | onClose =>
    obtain rfl := Option.some.inj hs'
    obtain ⟨htasks, harrived, hresult, -⟩ := onClose_frame u s
    intro j pc data hj hdata
    rw [htasks] at hj
    rw [harrived, hresult]
    exact h j pc data hj hdata

theorem prefix_concat {α : Type} {l m : List α} {x : α} (h : l <+: m) (hx : m[l.length]? = some x) :
    l ++ [x] <+: m := by
  obtain ⟨rest, rfl⟩ := h
  rw [List.getElem?_append_right le_rfl, Nat.sub_self] at hx
  cases rest with
  | nil => simp at hx
  | cons y rest =>
    simp only [List.getElem?_cons_zero, Option.some.injEq] at hx
    subst hx
    exact ⟨rest, by simp⟩

theorem step_forwards (a : Action ρ) (hinv : Inv u s) (hcarries : Carries u s)
    (h : Forwards u s.result s.arrived (s.sent.map Prod.snd)) (hturn : InTurn s a)
    (hunbroken : Unbroken s a) (hs' : step u s a = some s') :
    Forwards u s'.result s'.arrived (s'.sent.map Prod.snd) := by
  have hgone : s.gone = false := by
    by_contra hgone
    simp [step, hgone] at hs'
  simp only [step, hgone, Bool.false_eq_true, if_false] at hs'
  cases a with
  | receive data =>
    simp only at hs'
    split_ifs at hs' with hclosing
    obtain rfl := Option.some.inj hs'
    rcases receive_cases hinv hturn (by simpa using hclosing) with
      ⟨hsent, -⟩ | ⟨harrived, -, heq⟩
    · rw [hsent]
      exact List.nil_prefix
    · rw [heq]
      show s.sent.map Prod.snd <+: expected u s.result (s.arrived ++ [data])
      rw [expected_append u s.result harrived]
      exact h.trans (List.prefix_append _ _)
  | resume i input =>
    obtain ⟨pc, hpc, hresume⟩ := Option.bind_eq_some_iff.1 hs'
    rcases resume_cases hinv hgone hpc hresume with
      ⟨hsent, -⟩ | ⟨k, data, ok, hcarried, hwrote, hinput⟩
    · rw [hsent]
      exact List.nil_prefix
    · rw [hwrote.result, hwrote.arrived, hwrote.sent]
      cases ok
      · exact h
      · -- every packet before this one has been sent, so this is the next one
        obtain ⟨activated, exported, rfl⟩ := hinput rfl
        have hlength : s.sent.length = i := hunbroken
        rw [if_pos rfl, List.map_append]
        refine prefix_concat h ?_
        rw [List.length_map, hlength]
        exact hcarries i pc data hpc hcarried
  | onClose =>
    obtain rfl := Option.some.inj hs'
    obtain ⟨-, harrived, hresult, hsent⟩ := onClose_frame u s
    rw [harrived, hresult, hsent]
    exact h

theorem eventForwards (u : Setup ρ) (packet : Bytes) (result : ρ) :
    EventForwards u packet result := by
  intro as s hturn hrun _ _
  have hall : Inv u s ∧ Carries u s ∧ Forwards u s.result s.arrived (s.sent.map Prod.snd) := by
    have hnew : Carries u (new : State ρ) := by
      intro i pc data hi
      simp [new] at hi
    refine run_inv_of_each (P := fun s => Inv u s ∧ Carries u s
      ∧ Forwards u s.result s.arrived (s.sent.map Prod.snd)) (fun s a s' hs hC hstep => ?_)
      ⟨.idle rfl, hnew, List.nil_prefix⟩ hturn hrun
    obtain ⟨hinv, hcarries, hforwards⟩ := hs
    exact ⟨step_inv a hinv hC.1 hstep, step_carries a hinv hcarries hC.1 hstep,
      step_forwards a hinv hcarries hforwards hC.1 hC.2 hstep⟩
  exact ⟨hall.1.sent_zero, hall.2.2⟩

/-! ## The coroutine server -/

namespace Coroutine

variable {s s' : State ρ}

/-- The packet that has been read and not sent. -/
def Pc.pending : Pc → List Bytes
  | .routing data | .dialing data _ | .sendingFirst data | .sending data => [data]
  | _ => []

/-- The packets are sent as they were read. -/
def Inv (s : State ρ) : Prop :=
  s.sent ++ s.pc.pending = s.arrived ∨ s.pc = .done ∧ s.sent <+: s.arrived

theorem Inv.sent_isPrefix (h : Inv s) : s.sent <+: s.arrived := by
  rcases h with h | ⟨-, h⟩
  · exact ⟨_, h⟩
  · exact h

theorem Inv.done (h : Inv s) (hpc : s'.pc = .done) (harrived : s'.arrived = s.arrived)
    (hsent : s'.sent = s.sent) : Inv s' := by
  refine .inr ⟨hpc, ?_⟩
  rw [harrived, hsent]
  exact h.sent_isPrefix

theorem closeConnection_frame (s : State ρ) : s.closeConnection.arrived = s.arrived
    ∧ s.closeConnection.sent = s.sent := by
  unfold State.closeConnection
  split_ifs
  · exact ⟨rfl, rfl⟩
  · exact ⟨rfl, rfl⟩

theorem Inv.close (h : Inv s) : Inv { s.closeConnection with pc := .done } := by
  obtain ⟨harrived, hsent⟩ := closeConnection_frame s
  exact h.done rfl harrived hsent

theorem Inv.wrote {data : Bytes} (h : Inv s) (hpc : s.pc.pending = [data]) : Inv (s.put data) := by
  left
  rcases h with h | ⟨hdone, -⟩
  · rw [hpc] at h
    simpa [State.put, Pc.pending] using h
  · simp [hdone, Pc.pending] at hpc

theorem Inv.got {data : Bytes} {pc : Pc} (h : Inv s) (hnil : s.pc.pending = [])
    (hpc : s.pc ≠ .done) (hpending : pc.pending = [data]) : Inv (s.got data pc) := by
  left
  rcases h with h | ⟨hdone, -⟩
  · rw [hnil, List.append_nil] at h
    simp [State.got, hpending, h]
  · exact absurd hdone hpc

/-- A routed packet is dialed for or dropped. -/
theorem Inv.routed {data : Bytes} (h : Inv s) (hpc : s.pc = .routing data) (result : Option ρ)
    (initialData : Bytes) : Inv { s with result := result, pc := .dialing data initialData } := by
  rcases h with h | ⟨hdone, -⟩
  · rw [hpc] at h
    exact .inl h
  · rw [hpc] at hdone
    cases hdone

theorem Inv.dialed {data initialData : Bytes} (h : Inv s) (hpc : s.pc = .dialing data initialData) :
    Inv { s with client := true, initialData := some initialData, pc := .sendingFirst data } := by
  rcases h with h | ⟨hdone, -⟩
  · rw [hpc] at h
    exact .inl h
  · rw [hpc] at hdone
    cases hdone

theorem step_inv (input : Input ρ) (h : Inv s) (hs' : step u s input = some s') : Inv s' := by
  unfold step at hs'
  split at hs'
  · obtain rfl := Option.some.inj hs'
    exact h.done rfl rfl rfl
  · rename_i data hpc
    split_ifs at hs'
    · obtain rfl := Option.some.inj hs'
      exact h.done rfl rfl rfl
    · obtain rfl := Option.some.inj hs'
      exact h.got (by simp [hpc, Pc.pending]) (by simp [hpc]) rfl
    · obtain rfl := Option.some.inj hs'
      exact h.got (by simp [hpc, Pc.pending]) (by simp [hpc]) rfl
  · obtain rfl := Option.some.inj hs'
    exact h.done rfl rfl rfl
  · rename_i data result hpc
    split at hs'
    · obtain rfl := Option.some.inj hs'
      exact h.done rfl rfl rfl
    · obtain rfl := Option.some.inj hs'
      exact h.routed hpc _ _
  · rename_i data initialData ok hpc
    split_ifs at hs'
    · obtain rfl := Option.some.inj hs'
      exact h.dialed hpc
    · obtain rfl := Option.some.inj hs'
      exact h.done rfl rfl rfl
  · rename_i data ok hpc
    split_ifs at hs'
    · obtain rfl := Option.some.inj hs'
      exact h.wrote (by simp [hpc, Pc.pending])
    · obtain rfl := Option.some.inj hs'
      exact h.close
  · obtain rfl := Option.some.inj hs'
    exact h.close
  · rename_i data hpc
    split_ifs at hs'
    · obtain rfl := Option.some.inj hs'
      exact h.close
    · obtain rfl := Option.some.inj hs'
      exact h.got (by simp [hpc, Pc.pending]) (by simp [hpc]) rfl
  · rename_i data ok hpc
    split_ifs at hs'
    · obtain rfl := Option.some.inj hs'
      exact h.wrote (by simp [hpc, Pc.pending])
    · obtain rfl := Option.some.inj hs'
      exact h.close
  · cases hs'

theorem sent_isPrefix_of_run {inputs : List (Input ρ)} (h : run (step u) new inputs = some s) :
    s.sent <+: s.arrived :=
  (run_inv (fun _ input _ hs hs' => step_inv input hs hs') (.inl rfl) h).sent_isPrefix

/-- The packet is sent as it was read, whatever the transformer made of it. -/
theorem run_first_packet {packet initialData : Bytes} {result : ρ} (hpacket : packet ≠ [])
    (htransform : u.transformInitialData packet result = some initialData) :
    run (step u) new [.received (some packet), .routed (some result), .connected true, .wrote true]
      = some ⟨true, some initialData, .reading, [packet], some result, [packet]⟩ := by
  have hempty : packet.isEmpty = false := by simpa using hpacket
  simp [run, step, new, State.got, State.put, hempty, htransform]

end Coroutine

/-! ## Both servers -/

theorem expected_of_unchanged {packet : Bytes} {result : ρ} {arrived : List Bytes}
    (h : ∀ initialData, u.transformInitialData packet result = some initialData →
      initialData = packet) (hfirst : arrived.head? = some packet) :
    expected u (some result) arrived = arrived := by
  obtain ⟨rest, rfl⟩ := List.head?_eq_some_iff.1 hfirst
  rcases htransform : u.transformInitialData packet result with _ | initialData
  · simp [expected, htransform]
  · simp [expected, htransform, h initialData htransform]

/-- The event-driven server forwards the first packet as the transformer made it and the others as
they are.  The coroutine server does so exactly if the transformer, if it gives a packet at all,
leaves this one as it is. -/
theorem forwards_iff_unchanged (u : Setup ρ) {packet : Bytes} (hpacket : packet ≠ []) (result : ρ) :
    EventForwards u packet result
      ∧ (CoroutineForwards u packet result
        ↔ ∀ initialData, u.transformInitialData packet result = some initialData →
          initialData = packet) := by
  refine ⟨eventForwards u packet result, ?_⟩
  constructor
  · intro hforwards initialData htransform
    have hsent := hforwards _ _ (Coroutine.run_first_packet hpacket htransform) rfl rfl
    have hsame : [packet] <+: [initialData] := by
      simpa [Forwards, expected, htransform] using hsent
    exact (List.cons.inj (hsame.eq_of_length rfl)).1.symm
  · intro hunchanged inputs s hrun hfirst hresult
    unfold Forwards
    rw [hresult, expected_of_unchanged hunchanged hfirst]
    exact Coroutine.sent_isPrefix_of_run hrun

/-- Without a transformer nothing is changed. -/
theorem forwards_iff_unchanged_plain :
    ([1] : Bytes) ≠ [] ∧ EventForwards plain [1] () ∧ CoroutineForwards plain [1] () := by
  obtain ⟨hevent, hiff⟩ := forwards_iff_unchanged plain (List.cons_ne_nil 1 []) ()
  exact ⟨by decide, hevent, hiff.2 fun initialData h => (Option.some.inj h).symm⟩

/-- A server whose transformer puts a byte before the packet. -/
def marked : Setup Unit := ⟨true, some fun data _ => some (0 :: data)⟩

/-- The event-driven server sends the transformed packet, the coroutine server the one it read. -/
theorem coroutine_sends_untransformed :
    (∃ s, run (step marked) new [.receive [1], .resume 0 (.routed (some ())),
        .resume 0 (.connected true), .resume 0 (.wrote true false true)] = some s
      ∧ s.sent = [(0, [0, 1])] ∧ s.arrived = [[1]])
    ∧ (∃ s, run (Coroutine.step marked) Coroutine.new [.received (some [1]), .routed (some ()),
        .connected true, .wrote true] = some s
      ∧ s.initialData = some [0, 1] ∧ s.sent = [[1]] ∧ s.arrived = [[1]])
    ∧ ¬ CoroutineForwards marked [1] () := by
  refine ⟨⟨_, rfl, rfl, rfl⟩, ⟨_, rfl, rfl, rfl, rfl⟩, fun h => ?_⟩
  have hsent : [[1]] <+: ([[0, 1]] : List Bytes) :=
    h [.received (some [1]), .routed (some ()), .connected true, .wrote true] _ rfl rfl rfl
  exact absurd (hsent.eq_of_length rfl) (by decide)

end PhpTcp

end ProtocolProxy

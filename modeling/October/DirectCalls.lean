import October.SocketTransport

/-!
Direct tool calls on a link. As long as the reader is given text until the link closes,
it fails invokes and signals the loss only after that; and as long as no request is sent
whose sender was filed after the drain, no invoke waits on the map of a reader that has
ended.
-/
namespace October.DirectCalls

open SocketRuntimeTransport

def heard (s : SocketRuntimeTransport) : Prop := ∃ item ∈ s.arrived, item.closes = true

/-- An invoke whose request was sent waits on its entry of the map. -/
def Waits (s : SocketRuntimeTransport) (i : ℕ) : Prop :=
  ∃ c, s.calls i = some c ∧ c.phase = .waiting ∧ s.filed c.callId = some i

def Failed (s : SocketRuntimeTransport) : Prop :=
  ∃ i c, s.calls i = some c ∧ c.reply = .filled (.error .disconnected)

structure Inv (s : SocketRuntimeTransport) : Prop where
  late : s.drained = true → ∀ i, ¬ Waits s i
  reading : heard s ∨ s.reader = .reading ∨ ∃ callId result, s.reader = .answering callId result
  failed : Failed s → heard s
  signalled : s.closed = true → heard s

variable {s t : SocketRuntimeTransport} {i j : ℕ} {c : Invoke} {callId : String}

section Fields

variable {phase : InvokePhase} {p : ℕ → Bool}
  {f : Oneshot (Except TransportError ToolResult) → Oneshot (Except TransportError ToolResult)}

theorem calls_setPhase (h : (s.setPhase i phase).calls j = some c) :
    ∃ c', s.calls j = some c' ∧ c.callId = c'.callId ∧ c.reply = c'.reply ∧
      c.phase = if j = i then phase else c'.phase := by
  unfold setPhase at h
  dsimp only at h
  by_cases hj : j = i
  · rw [if_pos hj] at h
    obtain ⟨c', hc', rfl⟩ := Option.map_eq_some_iff.mp h
    exact ⟨c', hc', rfl, rfl, (if_pos hj).symm⟩
  · rw [if_neg hj] at h
    exact ⟨c, h, rfl, rfl, (if_neg hj).symm⟩

theorem calls_setReplies (h : (s.setReplies p f).calls j = some c) :
    ∃ c', s.calls j = some c' ∧ c.callId = c'.callId ∧ c.phase = c'.phase ∧
      (c.reply = f c'.reply ∨ c.reply = c'.reply) := by
  unfold setReplies at h
  dsimp only at h
  by_cases hj : p j = true
  · rw [if_pos hj] at h
    obtain ⟨c', hc', rfl⟩ := Option.map_eq_some_iff.mp h
    exact ⟨c', hc', rfl, rfl, Or.inl rfl⟩
  · rw [if_neg hj] at h
    exact ⟨c, h, rfl, rfl, Or.inr rfl⟩

theorem filled_of_dropSender {α : Type} {o : Oneshot α} {a : α}
    (h : o.dropSender = .filled a) : o = .filled a := by
  cases o with
  | empty => contradiction
  | filled b => exact h
  | dropped => contradiction

theorem filled_of_send {α : Type} {o : Oneshot α} {a b : α} (h : o.send b = .filled a) :
    o = .filled a ∨ b = a := by
  cases o with
  | empty => exact Or.inr (Oneshot.filled.inj h)
  | filled _ => exact Or.inl h
  | dropped => contradiction

end Fields

section Waiting

/-- An invoke put in a phase other than waiting does not wait, and no other one starts to. -/
theorem waits_setPhase {phase : InvokePhase} (hphase : phase ≠ .waiting)
    (h : Waits (s.setPhase i phase) j) : j ≠ i ∧ Waits s j := by
  obtain ⟨c, hc, hwaiting, hfiled⟩ := h
  obtain ⟨c', hc', hid, _, hphase'⟩ := calls_setPhase hc
  by_cases hj : j = i
  · rw [if_pos hj] at hphase'
    exact absurd (hphase'.symm.trans hwaiting) hphase
  · rw [if_neg hj] at hphase'
    exact ⟨hj, c', hc', hphase'.symm.trans hwaiting, by rw [← hid]; exact hfiled⟩

theorem waits_file (hj : j ≠ i) (h : Waits (s.file i callId) j) : Waits s j := by
  obtain ⟨c, hc, hwaiting, hfiled⟩ := h
  have hreplies : (s.setReplies (fun k => s.filed callId == some k) Oneshot.dropSender).calls j =
      some c := hc
  obtain ⟨c', hc', hid, hphase, _⟩ := calls_setReplies hreplies
  refine ⟨c', hc', hphase.symm.trans hwaiting, ?_⟩
  rw [← hid]
  unfold filed file at hfiled
  by_cases hsame : c.callId = callId
  · rw [hsame, AList.lookup_insert] at hfiled
    exact absurd (Option.some.inj hfiled).symm hj
  · rwa [AList.lookup_insert_ne hsame] at hfiled

/-- Taking an entry out of the map leaves no new one to wait on. -/
theorem waits_erase {p : ℕ → Bool}
    {f : Oneshot (Except TransportError ToolResult) → Oneshot (Except TransportError ToolResult)}
    (h : Waits { s.setReplies p f with pending := s.pending.erase callId } j) : Waits s j := by
  obtain ⟨c, hc, hwaiting, hfiled⟩ := h
  obtain ⟨c', hc', hid, hphase, _⟩ := calls_setReplies hc
  refine ⟨c', hc', hphase.symm.trans hwaiting, ?_⟩
  rw [← hid]
  unfold filed at hfiled
  dsimp only at hfiled
  by_cases hsame : c.callId = callId
  · rw [hsame, AList.lookup_erase] at hfiled
    contradiction
  · rwa [AList.lookup_erase_ne hsame] at hfiled

end Waiting

section Failing

theorem failed_setPhase {phase : InvokePhase} (h : Failed (s.setPhase i phase)) : Failed s := by
  obtain ⟨j, c, hc, hreply⟩ := h
  obtain ⟨c', hc', _, hreply', _⟩ := calls_setPhase hc
  exact ⟨j, c', hc', hreply'.symm.trans hreply⟩

theorem failed_setReplies {p : ℕ → Bool}
    {f : Oneshot (Except TransportError ToolResult) → Oneshot (Except TransportError ToolResult)}
    (hf : ∀ o, f o = .filled (.error .disconnected) → o = .filled (.error .disconnected))
    (h : Failed (s.setReplies p f)) : Failed s := by
  obtain ⟨j, c, hc, hreply⟩ := h
  obtain ⟨c', hc', _, _, hreply' | hreply'⟩ := calls_setReplies hc
  · exact ⟨j, c', hc', hf _ (hreply'.symm.trans hreply)⟩
  · exact ⟨j, c', hc', hreply'.symm.trans hreply⟩

theorem failed_dropSender {p : ℕ → Bool} (h : Failed (s.setReplies p Oneshot.dropSender)) :
    Failed s :=
  failed_setReplies (fun _ => filled_of_dropSender) h

theorem failed_answered {p : ℕ → Bool} {result : ToolResult}
    (h : Failed (s.setReplies p (Oneshot.send (.ok result)))) : Failed s := by
  refine failed_setReplies (fun o ho => ?_) h
  rcases filled_of_send ho with hold | hnew
  · exact hold
  · contradiction

end Failing

section Steps

theorem init_inv : Inv init where
  late h := by contradiction
  reading := Or.inr (Or.inl rfl)
  failed := by
    rintro ⟨i, c, hc, _⟩
    contradiction
  signalled h := by contradiction

/-- A step of an invoke: the reader is where it was. -/
theorem Inv.invoke_step (h : Inv s) (hreader : t.reader = s.reader)
    (harrived : t.arrived = s.arrived) (hclosed : t.closed = s.closed)
    (hlate : s.drained = true → ∀ i, Waits t i → Waits s i) (hfailed : Failed t → Failed s) :
    Inv t where
  late hdrained i hwaits := by
    unfold drained at hdrained
    rw [hreader] at hdrained
    exact h.late hdrained i (hlate hdrained i hwaits)
  reading := by
    unfold heard
    rw [harrived, hreader]
    exact h.reading
  failed hf := by
    unfold heard
    rw [harrived]
    exact h.failed (hfailed hf)
  signalled hc := by
    unfold heard
    rw [harrived]
    exact h.signalled (hclosed ▸ hc)

inductive Step (s : SocketRuntimeTransport) : SocketLabel → SocketRuntimeTransport → Prop
  | invoke {i : ℕ} (callId : String) (call : Value) (h : s.calls i = none) :
      Step s (.invoke i callId call) { s with
        calls := fun j => if j = i then some ⟨callId, call, .inserting, .empty⟩ else s.calls j }
  | insert {i : ℕ} {c : Invoke} (h : s.calls i = some c) (hphase : c.phase = .inserting) :
      Step s (.insert i) ((s.file i c.callId).setPhase i .sending)
  | sent {i : ℕ} {c : Invoke} (h : s.calls i = some c) (hphase : c.phase = .sending) :
      Step s (.send i .sent) (s.setPhase i .waiting)
  | unsent {i : ℕ} {outcome : SendOutcome} {phase : InvokePhase} (hphase : phase ≠ .waiting) :
      Step s (.send i outcome) (s.setPhase i phase)
  | remove {i : ℕ} (callId reason : String) :
      Step s (.remove i)
        ((s.forget callId).setPhase i (.returned (.error (.sendFailed reason))))
  | receive {i : ℕ} (reply : Except TransportError ToolResult) :
      Step s (.receive i) (s.setPhase i (.returned reply))
  | arrive (item : Arrival RuntimeOutboundMessage) (h : s.reader = .reading) :
      Step s (.arrive item) { s with reader := read item, arrived := s.arrived ++ [item] }
  | answer {callId : String} {result : ToolResult} (h : s.reader = .answering callId result) :
      Step s .answer { s.resolve callId result with reader := .reading }
  | drain (h : s.reader = .draining) : Step s .drain { s.drain with reader := .signalling }
  | signal (h : s.reader = .signalling) : Step s .signal { s with reader := .ended, closed := true }

theorem step_of_next {l : SocketLabel} (h : next s l = some t) : Step s l t := by
  cases l with
  | invoke i callId call =>
    simp only [next] at h
    cases hi : s.calls i with
    | some c =>
      rw [hi] at h
      contradiction
    | none =>
      rw [hi] at h
      cases Option.some.inj h
      exact Step.invoke callId call hi
  | insert i =>
    simp only [next] at h
    cases hi : s.calls i with
    | none =>
      rw [hi] at h
      contradiction
    | some c =>
      obtain ⟨callId, call, phase, reply⟩ := c
      rw [hi] at h
      cases phase with
      | inserting =>
        cases Option.some.inj h
        exact Step.insert hi rfl
      | _ => contradiction
  | send i outcome =>
    simp only [next] at h
    cases hi : s.calls i with
    | none =>
      rw [hi] at h
      contradiction
    | some c =>
      obtain ⟨callId, call, phase, reply⟩ := c
      rw [hi] at h
      cases phase with
      | sending =>
        cases outcome with
        | sent =>
          cases Option.some.inj h
          exact Step.sent hi rfl
        | failed reason =>
          cases Option.some.inj h
          exact Step.unsent (by simp)
        | notSerialized reason =>
          cases Option.some.inj h
          exact Step.unsent (by simp)
      | _ => contradiction
  | remove i =>
    simp only [next] at h
    cases hi : s.calls i with
    | none =>
      rw [hi] at h
      contradiction
    | some c =>
      obtain ⟨callId, call, phase, reply⟩ := c
      rw [hi] at h
      cases phase with
      | removing reason =>
        cases Option.some.inj h
        exact Step.remove callId reason
      | _ => contradiction
  | receive i =>
    simp only [next] at h
    cases hi : s.calls i with
    | none =>
      rw [hi] at h
      contradiction
    | some c =>
      obtain ⟨callId, call, phase, reply⟩ := c
      rw [hi] at h
      cases phase with
      | waiting =>
        cases reply with
        | empty => contradiction
        | filled reply =>
          cases Option.some.inj h
          exact Step.receive reply
        | dropped =>
          cases Option.some.inj h
          exact Step.receive (.error .disconnected)
      | _ => contradiction
  | arrive item =>
    simp only [next] at h
    cases hreader : s.reader with
    | reading =>
      rw [hreader] at h
      cases Option.some.inj h
      exact Step.arrive item hreader
    | _ =>
      rw [hreader] at h
      contradiction
  | answer =>
    simp only [next] at h
    cases hreader : s.reader with
    | answering callId result =>
      rw [hreader] at h
      cases Option.some.inj h
      exact Step.answer hreader
    | _ =>
      rw [hreader] at h
      contradiction
  | drain =>
    simp only [next] at h
    cases hreader : s.reader with
    | draining =>
      rw [hreader] at h
      cases Option.some.inj h
      exact Step.drain hreader
    | _ =>
      rw [hreader] at h
      contradiction
  | signal =>
    simp only [next] at h
    cases hreader : s.reader with
    | signalling =>
      rw [hreader] at h
      cases Option.some.inj h
      exact Step.signal hreader
    | _ =>
      rw [hreader] at h
      contradiction

theorem heard_append {item : Arrival RuntimeOutboundMessage}
    (h : ∃ item' ∈ s.arrived, item'.closes = true) :
    ∃ item' ∈ s.arrived ++ [item], item'.closes = true := by
  obtain ⟨item', hmem, hcloses⟩ := h
  exact ⟨item', List.mem_append_left _ hmem, hcloses⟩

/-- Once the reader has stopped reading, the link was closed. -/
theorem Inv.stopped (h : Inv s) (hreading : s.reader ≠ .reading)
    (hanswering : ∀ callId result, s.reader ≠ .answering callId result) : heard s := by
  rcases h.reading with hheard | hread | ⟨callId, result, hanswer⟩
  · exact hheard
  · exact absurd hread hreading
  · exact absurd hanswer (hanswering callId result)

theorem Inv.step {l : SocketLabel} (h : Inv s) (hheeds : Heeds s l) (hstep : next s l = some t) :
    Inv t := by
  cases step_of_next hstep with
  | @invoke i callId call hi =>
    have hold : ∀ j c, (if j = i then some ⟨callId, call, .inserting, .empty⟩ else s.calls j) =
        some c → s.calls j = some c ∨ (c.phase = .inserting ∧ c.reply = .empty) := by
      intro j c hc
      by_cases hj : j = i
      · rw [if_pos hj] at hc
        cases Option.some.inj hc
        exact Or.inr ⟨rfl, rfl⟩
      · rw [if_neg hj] at hc
        exact Or.inl hc
    refine h.invoke_step rfl rfl rfl (fun _ j hwaits => ?_) ?_
    · obtain ⟨c, hc, hwaiting, hfiled⟩ := hwaits
      rcases hold j c hc with hbefore | ⟨hnew, _⟩
      · exact ⟨c, hbefore, hwaiting, hfiled⟩
      · rw [hnew] at hwaiting
        contradiction
    · rintro ⟨j, c, hc, hreply⟩
      rcases hold j c hc with hbefore | ⟨_, hnew⟩
      · exact ⟨j, c, hbefore, hreply⟩
      · rw [hnew] at hreply
        contradiction
  | insert hi hphase =>
    refine h.invoke_step rfl rfl rfl (fun _ j hwaits => ?_)
      (fun hf => failed_dropSender (failed_setPhase hf))
    obtain ⟨hj, hfiled⟩ := waits_setPhase (by simp) hwaits
    exact waits_file hj hfiled
  | @sent i c hi hphase =>
    refine h.invoke_step rfl rfl rfl (fun hdrained j hwaits => ?_) failed_setPhase
    obtain ⟨c', hc, hwaiting, hfiled⟩ := hwaits
    obtain ⟨c₀, hc₀, hid, _, hphase'⟩ := calls_setPhase hc
    by_cases hj : j = i
    · subst hj
      have hentry : s.onEntry j = true := by
        unfold onEntry
        rw [hc₀, Option.any_some, ← hid]
        exact beq_iff_eq.mpr hfiled
      have hnot : s.heeds (.send j .sent) = false := by simp [heeds, hdrained, hentry]
      unfold Heeds at hheeds
      rw [hnot] at hheeds
      contradiction
    · rw [if_neg hj] at hphase'
      exact ⟨c₀, hc₀, hphase'.symm.trans hwaiting, by rw [← hid]; exact hfiled⟩
  | unsent hphase =>
    exact h.invoke_step rfl rfl rfl (fun _ _ hwaits => (waits_setPhase hphase hwaits).2)
      failed_setPhase
  | remove callId reason =>
    refine h.invoke_step rfl rfl rfl (fun _ j hwaits => ?_)
      (fun hf => failed_dropSender (failed_setPhase hf))
    exact waits_erase (waits_setPhase (by simp) hwaits).2
  | receive reply =>
    exact h.invoke_step rfl rfl rfl (fun _ _ hwaits => (waits_setPhase (by simp) hwaits).2)
      failed_setPhase
  | arrive item hreader =>
    refine ⟨fun hdrained => ?_, ?_, fun hf => heard_append (h.failed hf),
      fun hclosed => heard_append (h.signalled hclosed)⟩
    · cases item with
      | text parsed =>
        cases parsed with
        | none => contradiction
        | some msg => cases msg <;> contradiction
      | _ => contradiction
    · have hor := Bool.or_eq_true_iff.mp hheeds
      rcases hor with htext | hcloses
      · right
        cases item with
        | text parsed =>
          cases parsed with
          | none => exact Or.inl rfl
          | some msg =>
            cases msg with
            | ready runtimeId => exact Or.inl rfl
            | toolCallResponse callId result => exact Or.inr ⟨callId, result, rfl⟩
        | _ => contradiction
      · exact Or.inl ⟨item, List.mem_append_right _ (List.mem_singleton_self item), hcloses⟩
  | @answer callId result hreader =>
    exact ⟨fun hdrained => by contradiction, Or.inr (Or.inl rfl),
      fun hf => h.failed (failed_answered hf), h.signalled⟩
  | drain hreader =>
    have hheard : heard s := h.stopped (by simp [hreader]) (by simp [hreader])
    refine ⟨fun _ j hwaits => ?_, Or.inl hheard, fun _ => hheard, h.signalled⟩
    obtain ⟨c, _, _, hfiled⟩ := hwaits
    contradiction
  | signal hreader =>
    have hheard : heard s := h.stopped (by simp [hreader]) (by simp [hreader])
    refine ⟨fun _ => ?_, Or.inl hheard, h.failed, fun _ => hheard⟩
    exact h.late (by simp [drained, hreader])

end Steps

/-- In every interleaving of invokes, inbound items and link loss, as long as each step
heeds the condition: the reader fails invokes and signals the loss only after the link was
closed, and when it has ended no invoke waits on its entry. -/
theorem direct_calls (s : SocketRuntimeTransport) (hrun : Machine.Run next Heeds init s) :
    ((s.closed = true ∨ Failed s) → heard s) ∧ (s.reader = .ended → ∀ i, ¬ Waits s i) := by
  have h : Inv s := hrun.invariant Inv (fun _ _ _ hinv hheeds hstep => hinv.step hheeds hstep)
    init_inv
  refine ⟨fun hor => ?_, fun hended => h.late (by simp [drained, hended])⟩
  rcases hor with hclosed | hfailed
  · exact h.signalled hclosed
  · exact h.failed hfailed

def closedByPeer : List SocketLabel :=
  [.invoke 0 "c1" .null, .insert 0, .send 0 .sent, .arrive .close, .drain, .signal, .receive 0]

theorem closedByPeer_heard : heard (Machine.final next Heeds init closedByPeer) :=
  (direct_calls _ (Machine.run_final closedByPeer (by decide +kernel))).1
    (Or.inl (by decide +kernel))

def pinged : List SocketLabel :=
  [.invoke 0 "c1" .null, .insert 0, .send 0 .sent, .arrive .ping, .drain, .signal,
    .invoke 1 "c2" .null, .insert 1, .send 1 .sent]

theorem ping_disconnects :
    ¬ ∀ s : SocketRuntimeTransport, Machine.Run next Machine.free init s →
      ((s.closed = true ∨ Failed s) → heard s) ∧ (s.reader = .ended → ∀ i, ¬ Waits s i) := by
  intro h
  obtain ⟨hheard, hwaits⟩ := h _ (Machine.run_final pinged (by decide +kernel))
  obtain ⟨item, hmem, hcloses⟩ := hheard (Or.inl (by decide +kernel))
  have hping : (Machine.final next Machine.free init pinged).arrived = [.ping] := by
    decide +kernel
  rw [hping, List.mem_singleton] at hmem
  subst hmem
  contradiction

end October.DirectCalls

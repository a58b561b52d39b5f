import October.LifecycleCalls

/-!
What the calls of a client in process come to: the first creation in a new registry, and
the destruction of a runtime that is running.
-/
namespace October.ClientCalls

open LifecycleCalls

variable {client : Outside} {h h' : Host} {id : String} {config : RuntimeConfig}
  {entry : RuntimeEntry} {handle : RuntimeHandle}

section Steps

variable {α : Type} {rest : α → Host → Conduct} {o : Executor.Op}
  {k : Executor.Ans o → Executor.Program α} {a : Executor.Ans o}

theorem carryOut_call (hanswer : h.answer client o = some (a, h')) :
    carryOut client rest (.call o k) h = carryOut client rest (k a) h' := by
  rw [carryOut, hanswer]

theorem carryOut_hangs (hanswer : h.answer client o = none) :
    carryOut client rest (.call o k) h = ⟨[], h, some o⟩ := by
  rw [carryOut, hanswer]

end Steps

section Answers

theorem answer_create : h.answer client (.create id config) =
    (client.create h.calls id config).map (fun result =>
      (result, ⟨h.registry, h.calls ++ [.create id config]⟩)) := by
  rcases hc : client.create h.calls id config with - | ⟨e | handle⟩ <;>
    simp [Host.answer, Outside.choice, Executor.perform, outsideCalls, hc]

theorem answer_completeCreate (hentry : h.registry.get id = some entry) :
    h.answer client (.completeCreate id handle) = some (.ok (), ⟨h.registry.insert
      { entry with state := .running, handle := some handle }, h.calls⟩) := by
  simp [Host.answer, Outside.choice, Executor.perform, Executor.Memory.section,
    RuntimeRegistry.completeCreate, hentry, outsideCalls]

theorem answer_markFailed (hentry : h.registry.get id = some entry) :
    h.answer client (.markFailed id .notCreated) = some (.ok (), ⟨h.registry.insert
      { entry with state := .failed, handle := none }, h.calls⟩) := by
  simp [Host.answer, Outside.choice, Executor.perform, Executor.Memory.section,
    RuntimeRegistry.markFailed, hentry, outsideCalls]

theorem answer_beginStop (hentry : h.registry.get id = some entry)
    (hrunning : entry.state = .running) :
    h.answer client (.beginStop id) = some (.ok entry.handle,
      ⟨h.registry.insert { entry with state := .stopping, handle := none }, h.calls⟩) := by
  simp [Host.answer, Outside.choice, Executor.perform, Executor.Memory.section,
    RuntimeRegistry.beginStop, RuntimeRegistry.leave, hentry, hrunning,
    RuntimeRegistry.leavable, outsideCalls]

theorem answer_stop : h.answer client (.stop handle) =
    (client.stop h.calls handle).map (fun result =>
      (result, ⟨h.registry, h.calls ++ [.stop handle]⟩)) := by
  cases hc : client.stop h.calls handle <;>
    simp [Host.answer, Outside.choice, Executor.perform, outsideCalls, hc]

theorem answer_completeStop (hentry : h.registry.get id = some entry) :
    h.answer client (.completeStop id) =
      some (.ok (), ⟨h.registry.erase id, h.calls⟩) := by
  simp [Host.answer, Outside.choice, Executor.perform, Executor.Memory.section,
    RuntimeRegistry.completeStop, hentry, outsideCalls]

end Answers

section Programs

def creating (id : String) (config : RuntimeConfig) : RuntimeRegistry :=
  RuntimeRegistry.new.insert ⟨id, .creating, config, 0, none⟩

theorem answer_beginCreate : Host.answer client ⟨.new, []⟩ (.beginCreate id config) =
    some (.ok (), ⟨creating id config, []⟩) := rfl

theorem get_creating :
    (creating id config).get id = some ⟨id, .creating, config, 0, none⟩ :=
  RuntimeRegistry.get_insert .new _ rfl

theorem create_hangs (hcreate : client.create [] id config = none) :
    inProcess client [.createRuntime id config] ⟨.new, []⟩ =
      ⟨[], ⟨creating id config, []⟩, some (.create id config)⟩ := by
  have hanswer : Host.answer client ⟨creating id config, []⟩ (.create id config) = none := by
    rw [answer_create, hcreate, Option.map_none]
  refine (carryOut_call answer_beginCreate).trans ?_
  exact carryOut_hangs hanswer

theorem create_fails {e : RuntimeError} (hcreate : client.create [] id config = some (.error e)) :
    inProcess client [.createRuntime id config] ⟨.new, []⟩ =
      ⟨[.error (.commandFailed e.display)],
        ⟨(creating id config).insert ⟨id, .failed, config, 0, none⟩,
          [.create id config]⟩, none⟩ := by
  have hanswer : Host.answer client ⟨creating id config, []⟩ (.create id config) =
      some (.error e, ⟨creating id config, [.create id config]⟩) := by
    rw [answer_create, hcreate, Option.map_some]
    rfl
  have hmarked : Host.answer client ⟨creating id config, [.create id config]⟩
      (.markFailed id .notCreated) = _ := answer_markFailed get_creating
  refine (carryOut_call answer_beginCreate).trans ?_
  refine (carryOut_call hanswer).trans ?_
  exact carryOut_call hmarked

theorem create_succeeds (hcreate : client.create [] id config = some (.ok handle)) :
    inProcess client [.createRuntime id config] ⟨.new, []⟩ = ⟨[.ok ()],
      ⟨(creating id config).insert ⟨id, .running, config, 0, some handle⟩,
        [.create id config]⟩, none⟩ := by
  have hanswer : Host.answer client ⟨creating id config, []⟩ (.create id config) =
      some (.ok handle, ⟨creating id config, [.create id config]⟩) := by
    rw [answer_create, hcreate, Option.map_some]
    rfl
  have hcompleted : Host.answer client ⟨creating id config, [.create id config]⟩
      (.completeCreate id handle) = _ := answer_completeCreate get_creating
  refine (carryOut_call answer_beginCreate).trans ?_
  refine (carryOut_call hanswer).trans ?_
  exact carryOut_call hcompleted

def stopping (r : RuntimeRegistry) (entry : RuntimeEntry) : RuntimeRegistry :=
  r.insert { entry with state := .stopping, handle := none }

theorem destroy_hangs (hentry : h.registry.get id = some entry)
    (hrunning : entry.state = .running) (hhandle : entry.handle = some handle)
    (hstop : client.stop h.calls handle = none) :
    inProcess client [.destroyRuntime id] h =
      ⟨[], ⟨stopping h.registry entry, h.calls⟩, some (.stop handle)⟩ := by
  have hbegun : h.answer client (.beginStop id) = _ := answer_beginStop hentry hrunning
  have hanswer : Host.answer client ⟨stopping h.registry entry, h.calls⟩ (.stop handle) =
      none := by
    rw [answer_stop, hstop, Option.map_none]
  rw [hhandle] at hbegun
  refine (carryOut_call hbegun).trans ?_
  exact carryOut_hangs hanswer

/-- Once its handle is stopped, whatever comes of that, a runtime is removed. -/
theorem destroy_succeeds {result : Except RuntimeError Unit}
    (hentry : h.registry.get id = some entry) (hrunning : entry.state = .running)
    (hhandle : entry.handle = some handle)
    (hstop : client.stop h.calls handle = some result) :
    inProcess client [.destroyRuntime id] h = ⟨[.ok ()],
      ⟨(stopping h.registry entry).erase id, h.calls ++ [.stop handle]⟩, none⟩ := by
  have hbegun : h.answer client (.beginStop id) = _ := answer_beginStop hentry hrunning
  have hanswer : Host.answer client ⟨stopping h.registry entry, h.calls⟩ (.stop handle) =
      some (result, ⟨stopping h.registry entry, h.calls ++ [.stop handle]⟩) := by
    rw [answer_stop, hstop, Option.map_some]
  have hid : entry.id = id := RuntimeRegistry.id_of_get hentry
  have hstopping : (stopping h.registry entry).get id =
      some { entry with state := .stopping, handle := none } :=
    RuntimeRegistry.get_insert _ _ hid
  have hcompleted : Host.answer client
      ⟨stopping h.registry entry, h.calls ++ [.stop handle]⟩ (.completeStop id) = _ :=
    answer_completeStop hstopping
  rw [hhandle] at hbegun
  refine (carryOut_call hbegun).trans ?_
  refine (carryOut_call hanswer).trans ?_
  exact carryOut_call hcompleted

end Programs

end October.ClientCalls

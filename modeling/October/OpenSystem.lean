import October.WorkflowSteps

/-!
The workflow system open to its surroundings: besides the system's own steps, any
command may be put into the mailbox of the workflow or of an agent at any time. Only
the ends of runs come from the runs alone, as nothing else can build their reports.
-/
namespace October

def fromOutside : AgentCommand → Bool
  | .runFinished _ => false
  | _ => true

inductive OpenLabel where
  | step (label : Label)
  | tellWorkflow (command : WorkflowCommand)
  | tellAgent (ref : ActorRef) (command : AgentCommand)

def openNext (cfg : Config) (s : System) : OpenLabel → Option System
  | .step label => next cfg s label
  | .tellWorkflow command => some (s.tellWorkflow command)
  | .tellAgent ref command => if fromOutside command then some (s.tellAgent ref command) else none

inductive OpenStep (cfg : Config) (s : System) : OpenLabel → System → Prop
  | stepped (label : Label) (t : System) : Step cfg s label t → OpenStep cfg s (.step label) t
  | toldWorkflow (command : WorkflowCommand) :
      OpenStep cfg s (.tellWorkflow command) (s.tellWorkflow command)
  | toldAgent (ref : ActorRef) (command : AgentCommand) :
      fromOutside command = true →
      OpenStep cfg s (.tellAgent ref command) (s.tellAgent ref command)

theorem openNext_step {cfg : Config} {s t : System} {l : OpenLabel}
    (h : openNext cfg s l = some t) : OpenStep cfg s l t := by
  cases l with
  | step label => exact OpenStep.stepped label t (next_step h)
  | tellWorkflow command =>
    cases Option.some.inj h
    exact OpenStep.toldWorkflow command
  | tellAgent ref command =>
    simp only [openNext] at h
    split at h
    · rename_i houtside
      cases Option.some.inj h
      exact OpenStep.toldAgent ref command houtside
    · contradiction

end October

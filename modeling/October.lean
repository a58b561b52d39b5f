import October.RecoveryRefinesLive
import October.TornWrites
import October.LogTails
import October.WholeBatches
import October.FailedPersists
import October.InterchangeableJournals
import October.OpenSystem
import October.CancelReaches
import October.LiveChild
import October.ForkedConversation
import October.BoundedMailboxes
import October.CircularWait
import October.QuietSystems
import October.JobSystems
import October.JobRuntimes
import October.FinalShutdown
import October.JournaledConversation
import October.SessionLifetime
import October.SingleFlight
import October.ResumeReaches
import October.ContinuedTask
import October.TerminalStatus
import October.CancelSticks
import October.OrphanedJobs
import October.Announcements
import October.RuntimeHandles
import October.DirectCalls
import October.FreshLinks
import October.RelayedCalls
import October.AcknowledgedJobs
import October.EndedJobs
import October.TerminalOutcomes
import October.RunTokens
import October.PacedJobs
import October.DrainWaits
import October.FreshExecutors
import October.AnsweredCalls
import October.AnnouncedStates
import October.BoundedRestarts
import October.PermittedCalls
import October.ConcludedOutputs
import October.ValidatedWorkflows
import October.TransitionPaths
import October.CompleteJournals
import October.InterchangeableExecutors
import October.CutFrames
import October.RetriedStreams
import October.RepeatedTurns
import October.RunTraces
import October.HandoffDiscipline
import October.AnsweredTurns
import October.SanitizedHistories
import October.ConcludedCallIds
import October.TurnFingerprints
import October.TokenTotals
import October.LineRanges
import October.LineReplacements
import October.FirstMatches
import October.ResolvedPaths
import October.MockStreams
import October.LaunchLeaks
import October.RenderedHistory
import October.JobHistories
import October.DaemonConnection
import October.ClientRequests
import October.AnthropicRequest
import October.CachedPrompts
import October.FirstOccurrence
import October.WorkingFiles
import October.ReplayedFiles
import October.ProvisionedRuntimes
import October.Broadcast
import October.LogStreams
import October.SinkSteps
import October.FollowedLogs
import October.AttachedRuns
import October.MockServer
import October.ScriptedSessions
import October.UnderstoodScripts

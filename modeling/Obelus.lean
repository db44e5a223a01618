import Obelus.Acp.LosesNothing
import Obelus.Acp.OnePrompt
import Obelus.Acp.WaitsForUser
import Obelus.Agent.CompactedContext
import Obelus.Agent.FileEdit
import Obelus.Agent.MiddleOut
import Obelus.Agent.PairRepetitions
import Obelus.Agent.RetriedTurn
import Obelus.Agent.StrictestDecision
import Obelus.Agent.SummaryFound
import Obelus.Conversation.FixedPoint
import Obelus.Conversation.Push
import Obelus.Formats.Anthropic.Agreement
import Obelus.Formats.OpenAi.History
import Obelus.Formats.OpenAi.Responses
import Obelus.Formats.ResponsesApi.Agreement
import Obelus.Formats.ThinkFilter
import Obelus.Gateway.Pairing
import Obelus.Gateway.TelegramShows
import Obelus.Live.AudioAssets.Mapping
import Obelus.Live.Capture.Ownership
import Obelus.Live.Capture.Sequence
import Obelus.Live.Capture.Timeline
import Obelus.Live.ChangedNumbers
import Obelus.Live.ClaimDetection
import Obelus.Live.ClaimScheduler.Armed
import Obelus.Live.ClaimScheduler.Novelty
import Obelus.Live.ClaimScheduler.Uniqueness
import Obelus.Live.FactCheck.Consistent
import Obelus.Live.FactCheck.Erased
import Obelus.Live.FactCheck.Idempotent
import Obelus.Live.FactCheckModel.Findings
import Obelus.Live.FactCheckModel.Grounded
import Obelus.Live.FactCheckModel.Superseding
import Obelus.Live.LocalStt.Place
import Obelus.Live.SpeakerNumbers
import Obelus.Live.TranscriptFragments
import Obelus.Live.TranscriptUpdates
import Obelus.Live.TurnRevisions
import Obelus.Live.TurnWrites.Order
import Obelus.Live.WebEvidence.PublicHosts
import Obelus.LocalInference.EmulatedCuts
import Obelus.Markdown.CodeBlocks
import Obelus.Markdown.Rescan
import Obelus.Meetings.CurrentVersions
import Obelus.Meetings.Deletion
import Obelus.Meetings.DurableClaimGate
import Obelus.Meetings.Listing
import Obelus.Meetings.ManualRequests
import Obelus.Meetings.Recovery
import Obelus.Meetings.ResearchOutcomes
import Obelus.Meetings.Speakers
import Obelus.Meetings.TimelineEvents
import Obelus.Meetings.TranscriptConvergence
import Obelus.Session.ListPaging
import Obelus.Session.StoredList
import Obelus.Session.UsageAccounts

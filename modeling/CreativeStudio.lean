import CreativeStudio.Conc.Prog
import CreativeStudio.Conc.System
import CreativeStudio.Data.Dict
import CreativeStudio.Data.Json
import CreativeStudio.Schemas.Generation
import CreativeStudio.Jobs.Statuses
import CreativeStudio.Schemas.Errors
import CreativeStudio.Batches.Schemas
import CreativeStudio.Batches.Expansion
import CreativeStudio.Jobs.Schemas
import CreativeStudio.Batches.Records
import CreativeStudio.Batches.Progress
import CreativeStudio.Batches.Refine
import CreativeStudio.Batches.Locks
import CreativeStudio.Storage.Database
import CreativeStudio.Storage.World
import CreativeStudio.Storage.JobRepository
import CreativeStudio.Storage.Footprint
import CreativeStudio.Jobs.StatusLaw
import CreativeStudio.Jobs.Runner
import CreativeStudio.Batches.Repository
import CreativeStudio.Batches.Service
import CreativeStudio.Jobs.Completion
import CreativeStudio.Jobs.Recovery
import CreativeStudio.Jobs.AtMostOnce
import CreativeStudio.Batches.Evolution
import CreativeStudio.Batches.Store
import CreativeStudio.Data.Text
import CreativeStudio.Assets.Repository
import CreativeStudio.Story.Binding
import CreativeStudio.Story.Replay
import CreativeStudio.Routes.Stories
import CreativeStudio.Story.Slots
import CreativeStudio.Story.Race
import CreativeStudio.Story.Contest
import CreativeStudio.Story.ContinuityOrder
import CreativeStudio.Assets.Concurrency
import CreativeStudio.Projects.Placement
import CreativeStudio.Routes.Projects
import CreativeStudio.Routes.Membership
import CreativeStudio.Routes.Consistency
import CreativeStudio.Models.Cache
import CreativeStudio.Conc.Runs
import CreativeStudio.Models.CacheInvariant
import CreativeStudio.Models.Drain
import CreativeStudio.Models.Eviction
import CreativeStudio.Models.TeardownOnce
import CreativeStudio.Models.ReleaseAgain
import CreativeStudio.Models.BudgetRuns
import CreativeStudio.Models.Resolver
import CreativeStudio.Conc.Executions
import CreativeStudio.Jobs.Convergence
import CreativeStudio.Jobs.Redelivery
import CreativeStudio.Jobs.Resolution
import CreativeStudio.Jobs.Preflight
import CreativeStudio.Story.ContinuityRetry
import CreativeStudio.Story.TextLayout
import CreativeStudio.Video.Frames
import CreativeStudio.Video.LineBreaking
import CreativeStudio.Story.Timeline
import CreativeStudio.Video.Render
import CreativeStudio.Video.Sync
import CreativeStudio.Video.MovingSource
import CreativeStudio.Video.AudioReading
import CreativeStudio.Audio.Ducking
import CreativeStudio.Story.Merge
import CreativeStudio.Story.Structure
import CreativeStudio.Story.MergeAgain
import CreativeStudio.Routes.Durations
import CreativeStudio.Routes.Apply
import CreativeStudio.Assets.Primary
import CreativeStudio.Assets.Resync
import CreativeStudio.Generators.StoryTasks
import CreativeStudio.Audio.Chunks
import CreativeStudio.Audio.Lease
import CreativeStudio.Audio.Redaction
import CreativeStudio.Generators.Envelopes
import CreativeStudio.Jobs.Requeue
import CreativeStudio.Batches.Lookup
import CreativeStudio.Story.ContinuityPrompt
import CreativeStudio.Prompting.Locks
import CreativeStudio.Video.Limits
import CreativeStudio.Routes.Assembly
import CreativeStudio.Video.Opening
import CreativeStudio.Routes.Boundary
import CreativeStudio.Story.VisualManifest
import CreativeStudio.Story.VisualStrategy
import CreativeStudio.Story.VisualFanout
import CreativeStudio.Jobs.Lanes
import CreativeStudio.Jobs.WorkerPool
import CreativeStudio.Bible.Promotion
import CreativeStudio.Routes.Bible
import CreativeStudio.Schemas.Shapes
import CreativeStudio.Generators.ResponseModels
import CreativeStudio.Generators.Rendering
import CreativeStudio.Generators.TemplateRuntime
import CreativeStudio.Generators.SceneFrames
import CreativeStudio.Generators.TemplateAnswers
import CreativeStudio.Conc.Traces
import CreativeStudio.Generators.TextGenerator
import CreativeStudio.Generators.TextLease
import CreativeStudio.Generators.TextRuns

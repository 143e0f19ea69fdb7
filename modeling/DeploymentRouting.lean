import DeploymentRouting.Time
import DeploymentRouting.Table
import DeploymentRouting.Text.Blank
import DeploymentRouting.Text.Digits
import DeploymentRouting.Text.Quoted
import DeploymentRouting.Decimal.Shortest
import DeploymentRouting.Decimal.Style
import DeploymentRouting.Json.Basic
import DeploymentRouting.Json.Reader
import DeploymentRouting.Limits
import DeploymentRouting.Limiter
import DeploymentRouting.Cooldown
import DeploymentRouting.Health
import DeploymentRouting.Sorting
import DeploymentRouting.SetupError
import DeploymentRouting.Deployment
import DeploymentRouting.Registry
import DeploymentRouting.Backend
import DeploymentRouting.RoutingError
import DeploymentRouting.Strategy
import DeploymentRouting.Random
import DeploymentRouting.Selection
import DeploymentRouting.Fallbacks
import DeploymentRouting.Settings
import DeploymentRouting.Request
import DeploymentRouting.Spend
import DeploymentRouting.Router
import DeploymentRouting.Dispatch
import DeploymentRouting.Route
import DeploymentRouting.Stream
import DeploymentRouting.Document.Basic
import DeploymentRouting.Document.Scalar
import DeploymentRouting.Document.Decode
import DeploymentRouting.Yaml.Characters
import DeploymentRouting.Yaml.Token
import DeploymentRouting.Yaml.Reader
import DeploymentRouting.Yaml.Writer
import DeploymentRouting.Config.Limits
import DeploymentRouting.Config.Deployment
import DeploymentRouting.Config.Settings
import DeploymentRouting.Config.Basic
import DeploymentRouting.Environment
import DeploymentRouting.Config.Overrides
import DeploymentRouting.Config.File
import DeploymentRouting.Config.Apply
import DeploymentRouting.LogFilter
import DeploymentRouting.CommandLine.Arguments
import DeploymentRouting.CommandLine.Basic
import DeploymentRouting.CommandLine.Files
import DeploymentRouting.Main
import DeploymentRouting.Rehearsal.Script
import DeploymentRouting.Rehearsal.World
import DeploymentRouting.Rehearsal.Action
import DeploymentRouting.Proofs.Sorting
import DeploymentRouting.Proofs.Limiter.Decision
import DeploymentRouting.Proofs.Limiter.Cells
import DeploymentRouting.Proofs.Limiter.Log
import DeploymentRouting.Proofs.Limiter.Occupancy
import DeploymentRouting.Proofs.Limiter.Windows
import DeploymentRouting.Proofs.Limiter.FixedWindow
import DeploymentRouting.Proofs.Limiter.Lag
import DeploymentRouting.Proofs.Limiter.Reach
import DeploymentRouting.Proofs.Limiter.Refusals
import DeploymentRouting.Proofs.Limiter.Standing
import DeploymentRouting.Proofs.Health.Cooldown
import DeploymentRouting.Proofs.Health.Backoff
import DeploymentRouting.Proofs.Health.Observation
import DeploymentRouting.Proofs.Health.Average
import DeploymentRouting.Proofs.Fallbacks.Chain
import DeploymentRouting.Proofs.Registry.Index
import DeploymentRouting.Proofs.Registry.Records
import DeploymentRouting.Proofs.Registry.Answers
import DeploymentRouting.Proofs.Registry.Tiers
import DeploymentRouting.Proofs.Registry.Changes
import DeploymentRouting.Proofs.Selection.Chosen
import DeploymentRouting.Proofs.Router.Setup
import DeploymentRouting.Proofs.Router.Reload
import DeploymentRouting.Proofs.Dispatch.Trace
import DeploymentRouting.Proofs.Dispatch.Outcome
import DeploymentRouting.Proofs.Dispatch.Budget
import DeploymentRouting.Proofs.Dispatch.Visits
import DeploymentRouting.Proofs.Dispatch.Accounts
import DeploymentRouting.Proofs.Dispatch.Candidates
import DeploymentRouting.Proofs.Dispatch.Deadline
import DeploymentRouting.Proofs.Dispatch.Granted
import DeploymentRouting.Proofs.Gateway.Session
import DeploymentRouting.Proofs.Gateway.Places
import DeploymentRouting.Proofs.Gateway.Capacity
import DeploymentRouting.Proofs.Router.Reachable
import DeploymentRouting.Proofs.Gateway.Cooperation
import DeploymentRouting.Proofs.Router.Takeover
import DeploymentRouting.Proofs.Gateway.Frame
import DeploymentRouting.Proofs.Gateway.Attribution
import DeploymentRouting.Proofs.Gateway.Feedback
import DeploymentRouting.Proofs.Gateway.CleanHealth
import DeploymentRouting.Proofs.Document.Keyed
import DeploymentRouting.Proofs.Document.Carries
import DeploymentRouting.Proofs.Selection.Eligible
import DeploymentRouting.Proofs.Selection.Determined
import DeploymentRouting.Proofs.Selection.Fastest
import DeploymentRouting.Proofs.Selection.Rotation
import DeploymentRouting.Proofs.Selection.Rounding
import DeploymentRouting.Proofs.Selection.Overflow
import DeploymentRouting.Proofs.Config.RoundTrip
import DeploymentRouting.Proofs.Config.Builds
import DeploymentRouting.Proofs.Dispatch.Journal
import DeploymentRouting.Proofs.Dispatch.Passes
import DeploymentRouting.Proofs.Dispatch.Departures
import DeploymentRouting.Proofs.Dispatch.Exhaustion
import DeploymentRouting.Proofs.Stream.Reading
import DeploymentRouting.Proofs.Stream.Delivery
import DeploymentRouting.Proofs.Stream.Polls
import DeploymentRouting.Proofs.Gateway.Turns
import DeploymentRouting.Proofs.Gateway.Costs
import DeploymentRouting.Proofs.Gateway.Accounting
import DeploymentRouting.Proofs.Stream.Settlement
import DeploymentRouting.Proofs.Router.LiveState

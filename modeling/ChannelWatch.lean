import ChannelWatch.Scenario.Play
import ChannelWatch.Service.Serve
import ChannelWatch.Settings.Document
import ChannelWatch.Decimal.Megabytes
import ChannelWatch.Json.Printer
import ChannelWatch.Runner.Schedule
import ChannelWatch.Proofs.Cache.Names
import ChannelWatch.Proofs.Cache.Steps
import ChannelWatch.Proofs.Cache.Runs
import ChannelWatch.Proofs.Cache.InFlight
import ChannelWatch.Proofs.Cache.Waiting
import ChannelWatch.Proofs.Cache.Files
import ChannelWatch.Proofs.Cache.Deliveries
import ChannelWatch.Proofs.Cache.Whole
import ChannelWatch.Proofs.Feed.Order
import ChannelWatch.Proofs.Runner.Outcomes
import ChannelWatch.Proofs.Feed.Reference
import ChannelWatch.Proofs.Service.Steps
import ChannelWatch.Proofs.Service.Update
import ChannelWatch.Proofs.Cache.Sweeps
import ChannelWatch.Proofs.Cache.Once
import ChannelWatch.Proofs.Service.Latest
import ChannelWatch.Proofs.Api.Images
import ChannelWatch.Proofs.Cache.Kept
import ChannelWatch.Proofs.Service.Thumbnails
import ChannelWatch.Proofs.Runner.Attribution
import ChannelWatch.Proofs.Runner.Spans
import ChannelWatch.Proofs.Runner.Timed
import ChannelWatch.Proofs.Text.Utf8
import ChannelWatch.Proofs.Api.Exposed
import ChannelWatch.Proofs.Cache.Orderly
import ChannelWatch.Proofs.Cache.Renewed
import ChannelWatch.Proofs.Api.ServedBack
import ChannelWatch.Proofs.Cache.Layout
import ChannelWatch.Proofs.Loop.Runs
import ChannelWatch.Proofs.Loop.Rhythm
import ChannelWatch.Proofs.Loop.Cancelled
import ChannelWatch.Proofs.Service.Checked
import ChannelWatch.Proofs.Service.Overtaken
import ChannelWatch.Proofs.Text.Digits
import ChannelWatch.Proofs.Json.Literal
import ChannelWatch.Proofs.Json.Written
import ChannelWatch.Proofs.Json.Printer
import ChannelWatch.Proofs.Json.Record
import ChannelWatch.Proofs.Net.Address
import ChannelWatch.Proofs.Provider.Archive
import ChannelWatch.Proofs.Settings.RoundTrip
import ChannelWatch.Proofs.Markup.Spelled
import ChannelWatch.Proofs.Markup.Content
import ChannelWatch.Proofs.Markup.Tree
import ChannelWatch.Proofs.Time.Strict
import ChannelWatch.Proofs.Provider.Entries
import ChannelWatch.Proofs.Provider.Uploads
import ChannelWatch.Proofs.Feed.Merged
import ChannelWatch.Proofs.Cache.Failed
import ChannelWatch.Proofs.Cache.Swept
import ChannelWatch.Proofs.Cache.Onward
import ChannelWatch.Proofs.Cache.Pool
import ChannelWatch.Proofs.Cache.Attempts
import ChannelWatch.Proofs.Cache.Answered
import ChannelWatch.Proofs.Cache.Forms
import ChannelWatch.Proofs.Cache.Gathered
import ChannelWatch.Proofs.Cache.Asked
import ChannelWatch.Proofs.Cache.Together
import ChannelWatch.Proofs.Cache.Batch
import ChannelWatch.Proofs.Service.Batch
import ChannelWatch.Proofs.Http.Copied
import ChannelWatch.Proofs.Text.Cut
import ChannelWatch.Proofs.Text.Replaced
import ChannelWatch.Proofs.Url.Percent
import ChannelWatch.Proofs.Url.Form
import ChannelWatch.Proofs.Url.Parse
import ChannelWatch.Proofs.Url.Web
import ChannelWatch.Proofs.Provider.Requests
import ChannelWatch.Proofs.Provider.Links
import ChannelWatch.Proofs.Service.Started
import ChannelWatch.Proofs.Report
import ChannelWatch.Proofs.Api.Reported
import ChannelWatch.Proofs.Text.Divided
import ChannelWatch.Proofs.Cache.Recognised

import MiniosvCtrl.Infra.Run
import MiniosvCtrl.Ec2.Api
import MiniosvCtrl.Properties.SpotRequests
import MiniosvCtrl.Queue.Submit
import MiniosvCtrl.Properties.SingleQueue
import MiniosvCtrl.Infra.Lists
import MiniosvCtrl.LinuxS3.Verdict
import MiniosvCtrl.Properties.Complete
import MiniosvCtrl.Properties.LogTail
import MiniosvCtrl.Properties.Billing
import MiniosvCtrl.Infra.Frame
import MiniosvCtrl.Runner.Done
import MiniosvCtrl.Runner.Sweep
import MiniosvCtrl.Infra.Whole
import MiniosvCtrl.Properties.Rows
import MiniosvCtrl.Properties.ResumeComplete
import MiniosvCtrl.Experiment.Main
import MiniosvCtrl.Properties.ResumeSound
import MiniosvCtrl.Queue.Main
import MiniosvCtrl.Properties.Points
import MiniosvCtrl.Properties.Calls
import MiniosvCtrl.Properties.Owed
import MiniosvCtrl.Properties.Earned
import MiniosvCtrl.Properties.Sessions
import MiniosvCtrl.Properties.Interleave
import MiniosvCtrl.AnyBlob.Requests
import MiniosvCtrl.Bench.Duckdb
import MiniosvCtrl.Bench.Recorded
import MiniosvCtrl.Bucket.Policy
import MiniosvCtrl.Experiment.Drivers
import MiniosvCtrl.Infra.CsvText
import MiniosvCtrl.Properties.FailStop
import MiniosvCtrl.Properties.Measured
import MiniosvCtrl.Properties.PartialSweep
import MiniosvCtrl.Properties.PolicyUpdates
import MiniosvCtrl.Properties.SameBytes
import MiniosvCtrl.Properties.SweepOwn
import MiniosvCtrl.Properties.Terminated
import MiniosvCtrl.Properties.ValidRows
import MiniosvCtrl.Experiment.Environ
import MiniosvCtrl.Infra.Search
import MiniosvCtrl.LinuxS3.Summary
import MiniosvCtrl.Properties.Expansion
import MiniosvCtrl.Properties.Notes
import MiniosvCtrl.Properties.Summary
import MiniosvCtrl.AnyBlob.Callback
import MiniosvCtrl.LinuxS3.Wire
import MiniosvCtrl.Properties.BestSecond
import MiniosvCtrl.Properties.Body
import MiniosvCtrl.Properties.BuildTrees
import MiniosvCtrl.Properties.Children
import MiniosvCtrl.Properties.OnRecord
import MiniosvCtrl.Properties.Outlive
import MiniosvCtrl.Properties.Partition
import MiniosvCtrl.Properties.Steady
import MiniosvCtrl.Properties.Stopped
import MiniosvCtrl.Infra.Checked
import MiniosvCtrl.LinuxS3.LoadConfig
import MiniosvCtrl.Properties.NoTrap
import MiniosvCtrl.Infra.Through
import MiniosvCtrl.Runner.Size
import MiniosvCtrl.Properties.Sizes
import MiniosvCtrl.Properties.Suite
import MiniosvCtrl.Properties.Grants
import MiniosvCtrl.Properties.Market
import MiniosvCtrl.Properties.Zones
import MiniosvCtrl.Infra.Lines
import MiniosvCtrl.Properties.Console
import MiniosvCtrl.Infra.Pieces
import MiniosvCtrl.Bench.Figures
import MiniosvCtrl.Bench.Blocks
import MiniosvCtrl.Properties.Parity
import MiniosvCtrl.Bench.Results
import MiniosvCtrl.Properties.Labels
import MiniosvCtrl.Infra.Echoed
import MiniosvCtrl.Properties.Echoes
import MiniosvCtrl.Infra.Ranks
import MiniosvCtrl.AnyBlob.Dist
import MiniosvCtrl.Properties.Percentiles
import MiniosvCtrl.Infra.Base64
import MiniosvCtrl.Cov.Decode
import MiniosvCtrl.Properties.Tokens
import MiniosvCtrl.DuckdbLinux.Netphase
import MiniosvCtrl.Properties.Medians
import MiniosvCtrl.Properties.Exchanges
import MiniosvCtrl.Properties.Accounted
import MiniosvCtrl.Bench.Breakdown
import MiniosvCtrl.Properties.WallTime
import MiniosvCtrl.DuckdbLinux.Probe
import MiniosvCtrl.Properties.Timings
import MiniosvCtrl.Infra.Dicts
import MiniosvCtrl.Bench.Cost
import MiniosvCtrl.Properties.Charges
import MiniosvCtrl.Infra.LittleEndian
import MiniosvCtrl.LinuxSample.Sampler
import MiniosvCtrl.Properties.SampleRing
import MiniosvCtrl.Infra.Intervals
import MiniosvCtrl.DuckdbLinux.HttpStats
import MiniosvCtrl.Properties.Islands
import MiniosvCtrl.Properties.Outstanding
import MiniosvCtrl.Properties.Snapshots
import MiniosvCtrl.Properties.Merged
import MiniosvCtrl.Infra.Utf8
import MiniosvCtrl.Infra.Walk
import MiniosvCtrl.Queue.EndChild
import MiniosvCtrl.Properties.KillList
import MiniosvCtrl.LinuxS3.Pump
import MiniosvCtrl.Properties.Pumped
import MiniosvCtrl.Infra.Descriptors
import MiniosvCtrl.LinuxPerfevent.PerfEvent
import MiniosvCtrl.Properties.Descriptors
import MiniosvCtrl.Infra.RoundRobin
import MiniosvCtrl.Guest.Prelude
import MiniosvCtrl.Properties.CoreBudget
import MiniosvCtrl.Infra.Literal
import MiniosvCtrl.Guest.Script
import MiniosvCtrl.LinuxS3.Instance
import MiniosvCtrl.Properties.Config
import MiniosvCtrl.Properties.Knobs
import MiniosvCtrl.Infra.Files
import MiniosvCtrl.Queue.StateFiles
import MiniosvCtrl.Properties.Versions
import MiniosvCtrl.AnyBlob.Summary
import MiniosvCtrl.Properties.BlobLines
import MiniosvCtrl.Properties.BlobRows
import MiniosvCtrl.Properties.Answered
import MiniosvCtrl.Infra.Marked
import MiniosvCtrl.Server.Instance
import MiniosvCtrl.Server.External
import MiniosvCtrl.Properties.Served

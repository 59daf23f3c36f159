import DeferredOpen.Session.Basic
import DeferredOpen.Main
import DeferredOpen.Proofs.Text.Encoding
import DeferredOpen.Proofs.Delay.Cut
import DeferredOpen.Proofs.Settings.Reading
import DeferredOpen.Proofs.Number.Magnitude
import DeferredOpen.Proofs.Delay.Accepted
import DeferredOpen.Proofs.Process.Room
import DeferredOpen.Proofs.Process.Steps
import DeferredOpen.Proofs.Process.Effects
import DeferredOpen.Proofs.Process.Growth
import DeferredOpen.Proofs.Timer.Schedule
import DeferredOpen.Proofs.Timer.Firing
import DeferredOpen.Proofs.Probe.Course
import DeferredOpen.Proofs.Probe.Unhindered
import DeferredOpen.Proofs.Probe.Taking
import DeferredOpen.Proofs.Launcher.Course
import DeferredOpen.Proofs.Program.Behaviour
import DeferredOpen.Proofs.Program.Installed
import DeferredOpen.Proofs.Program.Dispatch
import DeferredOpen.Proofs.Program.ProbeRole
import DeferredOpen.Proofs.Program.Direct
import DeferredOpen.Proofs.Process.Keeping
import DeferredOpen.Proofs.Session.Beside
import DeferredOpen.Proofs.Session.Steps
import DeferredOpen.Proofs.Session.OneRun
import DeferredOpen.Proofs.Session.Lineage
import DeferredOpen.Proofs.Probe.Firing
import DeferredOpen.Proofs.Session.Agreement
import DeferredOpen.Proofs.Session.Cancelling
import DeferredOpen.Proofs.Program.Environment
import DeferredOpen.Proofs.Launcher.Outcome
import DeferredOpen.Proofs.Session.Launching
import DeferredOpen.Proofs.Number.Overflow
import DeferredOpen.Proofs.Delay.Microseconds
import DeferredOpen.Proofs.Delay.Accuracy
import DeferredOpen.Proofs.Delay.Order
import DeferredOpen.Proofs.Delay.Whole
import DeferredOpen.Proofs.Session.Endless
import DeferredOpen.Proofs.Settings.Precedence
import DeferredOpen.Proofs.Probe.Announcing
import DeferredOpen.Proofs.Timer.TimeLeft
import DeferredOpen.Proofs.Settings.Deadline
import DeferredOpen.Proofs.Session.Attempt
import DeferredOpen.Proofs.Probe.Moment
import DeferredOpen.Proofs.Program.Family
import DeferredOpen.Proofs.Process.Obtaining
import DeferredOpen.Proofs.Program.Handover
import DeferredOpen.Proofs.Probe.Reporting
import DeferredOpen.Proofs.Session.Descriptors
import DeferredOpen.Proofs.Program.Refusal
import DeferredOpen.Proofs.Timer.Pace
import DeferredOpen.Proofs.Fault.Contexts
import DeferredOpen.Proofs.Delay.Splitting
import DeferredOpen.Proofs.Shell.Limit

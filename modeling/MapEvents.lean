import MapEvents.Lifecycle.Call
import MapEvents.Service.Basic
import MapEvents.Session.Calls
import MapEvents.Proofs.Chain.Tour
import MapEvents.Proofs.Chain.Live
import MapEvents.Proofs.Session.Ending
import MapEvents.Proofs.Session.Quota
import MapEvents.Proofs.Trigger.Daily
import MapEvents.Proofs.Chain.Limit
import MapEvents.Proofs.Session.Fault
import MapEvents.Proofs.Session.Serial
import MapEvents.Proofs.Calendar.Days
import MapEvents.Proofs.Text.Digits
import MapEvents.Proofs.Calendar.Stamp
import MapEvents.Proofs.Schema.RoundTrip
import MapEvents.Proofs.State.Valid
import MapEvents.Proofs.Schema.Document
import MapEvents.Proofs.Schema.Spelling
import MapEvents.Proofs.Service.Idle
import MapEvents.Proofs.Session.Valid
import MapEvents.Proofs.Session.Update
import MapEvents.Proofs.Session.Daily
import MapEvents.Proofs.Session.Dispatch
import MapEvents.Proofs.Chain.Position
import MapEvents.Proofs.Session.Amid
import MapEvents.Proofs.Schema.Refusal
import MapEvents.Proofs.Schema.Halves
import MapEvents.Proofs.Text.Half
import MapEvents.Proofs.State.Patch
import MapEvents.Proofs.Service.Patch
import MapEvents.Proofs.Chain.Way
import MapEvents.Proofs.Chain.Loop
import MapEvents.Proofs.Chain.Firsts
import MapEvents.Proofs.Chain.Log
import MapEvents.Proofs.Chain.Performed
import MapEvents.Proofs.Chain.Steer
import MapEvents.Proofs.Action.Leftover
import MapEvents.Proofs.Chain.Closure
import MapEvents.Proofs.Chain.Trail
import MapEvents.Proofs.Chain.Course
import MapEvents.Proofs.Trigger.Today
import MapEvents.Proofs.State.Stock
import MapEvents.Proofs.Double.Value
import MapEvents.Proofs.Review.Verdict
import MapEvents.Proofs.Action.Approved
import MapEvents.Proofs.Condition.Order
import MapEvents.Proofs.Calendar.Advance
import MapEvents.Proofs.Lifecycle.Course
import MapEvents.Proofs.Task.Alike
import MapEvents.Proofs.Trigger.Own
import MapEvents.Proofs.State.Past
import MapEvents.Proofs.Chain.Alike
import MapEvents.Proofs.Session.Others
import MapEvents.Proofs.Chain.Exit
import MapEvents.Proofs.State.Tally
import MapEvents.Proofs.Condition.Turn
import MapEvents.Proofs.Settings

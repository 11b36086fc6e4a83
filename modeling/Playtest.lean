import Playtest.Main
import Playtest.Scripted
import Playtest.Proofs.Playback.KeyFrame
import Playtest.Proofs.Playback.Order
import Playtest.Proofs.Playback.Outstanding
import Playtest.Proofs.Segment.GivingUp
import Playtest.Proofs.Assignment.Lifecycle
import Playtest.Proofs.Assignment.TimeLimit
import Playtest.Proofs.Criteria.Latches
import Playtest.Proofs.Segment.Transient
import Playtest.Proofs.Playback.Boundaries
import Playtest.Proofs.Playback.OptionalList
import Playtest.Proofs.Assignment.Alone
import Playtest.Proofs.Assignment.Details
import Playtest.Proofs.Headless.ExitCode
import Playtest.Proofs.Playback.Leftovers
import Playtest.Proofs.Headless.ClockRange
import Playtest.Proofs.Resource.Versions
import Playtest.Proofs.Criteria.WireForm
import Playtest.Proofs.Resource.Kinds
import Playtest.Proofs.Segment.Assessments
import Playtest.Proofs.Result.Fingerprint
import Playtest.Proofs.Result.File
import Playtest.Proofs.Resource.Entries
import Playtest.Proofs.Criteria.LatchGrowth
import Playtest.Proofs.Vision.Retries
import Playtest.Proofs.Scene.Enumeration
import Playtest.Proofs.Scene.Suffixes
import Playtest.Proofs.Playback.Requests
import Playtest.Proofs.Playback.Pace
import Playtest.Proofs.Playback.Explanations
import Playtest.Proofs.Criteria.Equality
import Playtest.Proofs.Recording.Frames
import Playtest.Proofs.Result.Retelling
import Playtest.Proofs.Resource.Discovery
import Playtest.Proofs.Resource.Names

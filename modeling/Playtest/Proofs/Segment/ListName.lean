import Playtest.Proofs.Segment.Overlooked

/-!
# The name of a list

A segment carries the name of its list along, to report it. Nothing that is done with a segment
looks at that name: what `SegmentRun.tick` and `SegmentRun.abort` do is the same for a segment that
stands in another list, with the environment, the messages and all (`SegmentRun.Blind`). That is so
because each of them overlooks the list.
-/

namespace Playtest

/-- The entry without the name of the list. -/
def SegmentResult.unlisted (r : SegmentResult) : SegmentResult := { r with listName := "" }

namespace SegmentRun

/-- The run without the name of its list. -/
def unlisted (r : SegmentRun) : SegmentRun := { r with listName := "" }

/-- The state does not depend on the list. -/
theorem state_unlisted (r : SegmentRun) : r.unlisted.state = r.state := rfl

/-- The entry without the list is that of the run without it. -/
theorem result_unlisted (r : SegmentRun) : r.unlisted.result = r.result.unlisted := by
  change (if r.outcome = .notStarted then _ else _) =
    (if r.outcome = .notStarted then _ else _ : SegmentResult).unlisted
  split <;> rfl

/-- Skipping does not look at the name of the list. -/
theorem skipped_unlisted (r : SegmentRun) : r.unlisted.skipped = r.skipped.unlisted := by
  change (if r.state = .pending then _ else _) =
    (if r.state = .pending then _ else _ : SegmentRun).unlisted
  split <;> rfl

/-- Breaking a run off does not look at the name of the list. -/
theorem cutOff_unlisted (reason : String) (r : SegmentRun) :
    r.unlisted.cutOff reason = (r.cutOff reason).unlisted := by
  unfold cutOff
  rw [state_unlisted, skipped_unlisted]
  split
  · rfl
  split
  · rfl
  · rfl

/-- What is done with a segment **does not look at the name of its list**. -/
def Blind (f : SegmentRun → Environment → Turn SegmentRun) : Prop :=
  ∀ r env, f r.unlisted env = (f r env).map unlisted

variable {f : SegmentRun → Environment → Turn SegmentRun}

/-- To have no list is to be in a list without a name, and to keep the limit. -/
theorem Overlooks.blind (h : Overlooks (fun _ => "") id f) : Blind f := fun r env => h r env

/-- **A tick does not look at the name of the list.** -/
theorem blind_tick (m : Moment) : Blind (tick m) := (overlooks_tick m).blind

/-- Neither does breaking a segment off. -/
theorem blind_abort (reason : String) : Blind (abort reason) := (overlooks_abort reason).blind

end SegmentRun

end Playtest

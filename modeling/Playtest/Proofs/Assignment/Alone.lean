import Playtest.Proofs.Assignment.Lifecycle
import Playtest.Proofs.Playback.Heading

/-!
# An assignment plays what it has loaded

An assignment that is due loads its playlist, and from the next tick on it does nothing but play.
The main result, `AssignmentRun.plays_as_alone`, compares it with a run of that playlist that nobody
has wrapped into an assignment: the two stay in step, tick for tick and with the same environment,
and the status and the result of the assignment are read off that run.

Until it is due, nothing becomes of the assignment (`waits_serveAll`). Once its playlist is loaded,
`InStep` is carried from call to call: a tick of the assignment is one of the playback, and updates
that cancel nothing are only taken note of. The heading of the playback is the one thing in which
the two runs differ, and `serveAll_headed` takes it out.
-/

namespace Playtest

open Playtest.Calendar

/-- The status of an assignment that plays, by what its playback has come to. -/
def Status.ofResult : Option RunResult → Status
  | none => .running
  | some result => if result.success then .completed else .failed

/-- What may **happen to an assignment**: the two sides call it, the host changes its environment,
and somebody changes what is on disk. -/
inductive AssignmentCall where
  | tick (now : Instant) (b : Beat)
  | update (sent : Assignment)
  | meanwhile (change : Environment → Environment)
  | stored (tree : Resource.Tree)

/-- What a call is for a playback that is under way. It only knows of ticks. -/
def AssignmentCall.forPlayback : AssignmentCall → HostCall
  | .tick _ b => .tick b
  | .meanwhile change => .meanwhile change
  | .update _ | .stored _ => .meanwhile id

namespace AssignmentRun

variable {now : Instant} {b : Beat} {env : Environment} {a : Assignment} {c : Config}
  {r r' : AssignmentRun} {call : AssignmentCall} {calls : List AssignmentCall} {p : PlaybackRun}

/-- What one call makes of an assignment. -/
def serve (call : AssignmentCall) (r : AssignmentRun) (env : Environment) : Turn AssignmentRun :=
  match call with
  | .tick now b => r.tick now b env
  | .update sent => r.update sent env
  | .meanwhile change => .still r (change env)
  | .stored tree => .still { r with loader := { r.loader with tree } } env

/-- **One call after another.** -/
def serveAll : List AssignmentCall → AssignmentRun → Environment → Turn AssignmentRun
  | [], r, env => .still r env
  | call :: calls, r, env => (serve call r env).andThen (serveAll calls)

/-- Calls that come behind others are served by what those have left. -/
theorem serveAll_append (front back : List AssignmentCall) (r : AssignmentRun) (env : Environment) :
    (serveAll (front ++ back) r env).subject =
        (serveAll back (serveAll front r env).subject (serveAll front r env).env).subject ∧
      (serveAll (front ++ back) r env).env =
        (serveAll back (serveAll front r env).subject (serveAll front r env).env).env := by
  induction front generalizing r env with
  | nil => exact ⟨rfl, rfl⟩
  -- the first call is the same on both sides, and the rest goes on from what it leaves
  | cons call front ih => exact ih (serve call r env).subject (serve call r env).env

/-- No update **cancels** the assignment when it arrives. -/
def Uncancelled (calls : List AssignmentCall) (r : AssignmentRun) (env : Environment) : Prop :=
  ∀ front sent back, calls = front ++ .update sent :: back →
    ¬ Cancels sent (serveAll front r env).subject

/-- An update that comes first does not cancel what is there at the beginning. -/
theorem Uncancelled.head {sent : Assignment} (h : Uncancelled (.update sent :: calls) r env) :
    ¬ Cancels sent r :=
  h [] sent calls rfl

theorem Uncancelled.tail (h : Uncancelled (call :: calls) r env) :
    Uncancelled calls (serve call r env).subject (serve call r env).env := by
  intro front sent back hcalls
  -- what `front` says of the rest, `call :: front` says of the whole
  have hfront := h (call :: front) sent back (by rw [hcalls]; rfl)
  exact hfront

/-- If no update in a list of calls cancels, none does in the first part of it, and none in the
second part, which begins with what the first one leaves. -/
theorem Uncancelled.of_append {front back : List AssignmentCall}
    (h : Uncancelled (front ++ back) r env) :
    Uncancelled front r env ∧
      Uncancelled back (serveAll front r env).subject (serveAll front r env).env := by
  constructor
  · -- behind the first part stands more, which is of no account to it
    intro pre sent post hfront
    exact h pre sent (post ++ back) (by rw [hfront, List.append_assoc]; rfl)
  · intro pre sent post hback
    have hpre := h (front ++ pre) sent post (by rw [hback, List.append_assoc])
    rwa [(serveAll_append front pre r env).1] at hpre

/-- Updates that do not ask for it cancel nothing. -/
theorem uncancelled_of_not_requested (h : ∀ sent, .update sent ∈ calls →
    sent.isCancelRequested = false) :
    Uncancelled calls r env := by
  intro front sent back hcalls hcancels
  -- a cancellation begins with a request
  have hrequest := (isCancelRequested_iff sent).mpr hcancels.request
  rw [h sent (by rw [hcalls]; exact List.mem_append_right _ List.mem_cons_self)] at hrequest
  cases hrequest

/-! ### Waiting -/

/-- What may become of an assignment **while it waits**: something is said about it, and what is on
disk changes. -/
inductive Waits (r : AssignmentRun) : AssignmentRun → Prop
  | intro (remoteStatus : Option String) (tree : Resource.Tree) :
      Waits r { r.told remoteStatus with loader := { r.loader with tree } }

theorem Waits.refl (r : AssignmentRun) : Waits r r :=
  .intro r.assignment.remoteStatus r.loader.tree

/-- Waiting and waiting on is waiting: only what was said last counts, and only what lies on disk
now. -/
theorem Waits.trans {r'' : AssignmentRun} (h : Waits r r') (h' : Waits r' r'') : Waits r r'' := by
  obtain ⟨remoteStatus, tree⟩ := h
  obtain ⟨remoteStatus', tree'⟩ := h'
  exact .intro remoteStatus' tree'

/-- An assignment that waits stays in its status. -/
theorem Waits.status (h : Waits r r') : r'.status = r.status := by
  cases h
  rfl

/-- It is not due any sooner either. -/
theorem Waits.isDue (h : Waits r r') (now : Instant) :
    r'.assignment.isDue now = r.assignment.isDue now := by
  cases h
  rfl

/-- One call of any kind makes nothing of an assignment but one that waits, unless it is due or
cancelled. -/
theorem waits_serve (hs : r.status = .pending)
    (hearly : ∀ now b, call = .tick now b → ¬ r.assignment.isDue now)
    (hcancel : ∀ sent, call = .update sent → ¬ Cancels sent r) (env : Environment) :
    Waits r (serve call r env).subject := by
  cases call with
  | tick now b =>
    -- too early, a tick does nothing
    rw [serve, tick_of_early hs (hearly now b rfl)]
    exact .refl r
  | update sent =>
    -- a report may bring a status of the other side, and nothing else
    obtain ⟨remoteStatus, hr⟩ := update_of_not_cancels (hcancel sent rfl) env
    rw [serve, hr]
    exact .intro remoteStatus r.loader.tree
  | meanwhile change => exact .refl r
  | stored tree => exact .intro r.assignment.remoteStatus tree

/-- **Waiting changes nothing**, as long as no tick comes when the assignment is due. -/
theorem waits_serveAll (hs : r.status = .pending)
    (hearly : ∀ now b, .tick now b ∈ calls → ¬ r.assignment.isDue now)
    (hcancel : Uncancelled calls r env) :
    Waits r (serveAll calls r env).subject := by
  induction calls generalizing r env with
  | nil => exact .refl r
  | cons call calls ih =>
    have hfirst : Waits r (serve call r env).subject := by
      refine waits_serve hs (fun now b hb => hearly now b ?_) (fun sent hsent => ?_) env
      · rw [hb]
        exact List.mem_cons_self
      · subst hsent
        exact hcancel.head
    have htail := hcancel.tail
    refine hfirst.trans ?_
    change Waits _ (serveAll calls (serve call r env).subject (serve call r env).env).subject
    -- what the first call has left waits for the same time
    generalize (serve call r env).subject = r' at hfirst htail ⊢
    obtain ⟨remoteStatus, tree⟩ := hfirst
    exact ih hs (fun now b hb => hearly now b (List.mem_cons_of_mem _ hb)) htail

/-! ### Beginning -/

/-- An assignment that nobody has begun to work on, with a reporter or without. -/
inductive Fresh (a : Assignment) (c : Config) : AssignmentRun → Prop
  | of (tree : Resource.Tree) (mark : String) (startedAt : Int64) :
      Fresh a c (.of a c tree mark startedAt)
  | withReporter {r : AssignmentRun} (h : Fresh a c r) (reporter : Report.Reporter) :
      Fresh a c (r.withReporter reporter)

/-- How an assignment is before anybody has begun to work on it. -/
theorem Fresh.eq (h : Fresh a c r) :
    r = { AssignmentRun.of a c r.loader.tree r.mark r.startedAt with reporter := r.reporter } := by
  induction h with
  | of => rfl
  | withReporter _ reporter ih =>
    -- the second reporter takes the place of the first one
    have hr := congrArg (AssignmentRun.withReporter · reporter) ih
    exact hr

/-- What an assignment begins with is a run of its playlist that has not begun, but for the
heading. -/
theorem launched_eq {playlist : Playlist} {alone : PlaybackRun}
    (halone : PlaybackRun.Fresh playlist r.config alone)
    (hlimit : alone.timeout = r.config.timeout?)
    (hlistener : alone.listener = none) (hreporter : alone.reporter = r.reporter) :
    launched playlist r = alone.headed r.runId r.startedAt := by
  rw [halone.eq, hlimit, hlistener, hreporter]
  rfl

/-! ### Playing -/

/-- The assignment is **in step** with a run of its playlist. -/
structure InStep (p : PlaybackRun) (r : AssignmentRun) : Prop where
  playback : r.playback = some p
  status : r.status = .ofResult p.result
  result : r.result = p.result
  timeout : r.assignment.timeout = none

/-- They are in step from the tick on that begins the assignment. -/
theorem InStep.begin (hr : r.result = none) (ht : r.assignment.timeout = none)
    (hp : p.result = none) :
    InStep p ({ r with playback := some p }.turned .running) where
  playback := rfl
  -- neither has a result, and a playback without one is a running assignment
  status := by
    rw [hp]
    rfl
  result := hr.trans hp.symm
  timeout := ht

/-- The status does not depend on the heading. -/
theorem ofResult_headed (runId : String) (startedAt : Int64) (p : PlaybackRun) :
    Status.ofResult (p.headed runId startedAt).result = .ofResult p.result := by
  unfold PlaybackRun.headed
  cases p.result <;> rfl

/-- While the run goes on, a tick is one of the run, and when it has ended, nothing happens on both
sides. -/
theorem InStep.tick (h : InStep p r) (now : Instant) (b : Beat) (env : Environment) :
    InStep (p.tick b env).subject (r.tick now b env).subject ∧
      (r.tick now b env).env = (p.tick b env).env := by
  cases hp : p.result with
  -- the playback goes on, so the assignment is running
  | none =>
    have hs : r.status = .running := by rw [h.status, hp]; rfl
    -- an assignment without a limit always has time
    have htime : r.HasTime := by
      intro timeout ht
      rw [h.timeout] at ht
      cases ht
    obtain ⟨hsubject, henv⟩ := tick_of_plays now b env ⟨hs, h.playback⟩ htime
    refine ⟨?_, henv⟩
    rw [hsubject]
    unfold brought
    cases hresult : (p.tick b env).subject.result with
    | none =>
      -- the tick has brought no result, and the status stays as it is
      refine ⟨rfl, ?_, ?_, h.timeout⟩
      · rw [hresult]
        exact hs
      · rw [hresult]
        exact h.result.trans hp
    | some result =>
      dsimp only
      -- the tick was the last one, and the status is that of the result
      unfold settledOn
      split
      · next hsuccess =>
        refine ⟨rfl, ?_, hresult.symm, h.timeout⟩
        rw [hresult]
        exact (if_pos hsuccess).symm
      · next hsuccess =>
        refine ⟨rfl, ?_, hresult.symm, h.timeout⟩
        rw [hresult]
        exact (if_neg hsuccess).symm
  | some result =>
    -- the playback has ended, and so has the assignment
    have hterminal : r.status.isTerminal := by
      rw [h.status, hp]
      unfold Status.ofResult
      dsimp only
      split <;> rfl
    rw [PlaybackRun.tick_of_ended hp, tick_of_isTerminal hterminal]
    exact ⟨h, rfl⟩

/-- What the remote side says is of no account to the playback. -/
theorem InStep.told (h : InStep p r) (remoteStatus : Option String) :
    InStep p (r.told remoteStatus) :=
  ⟨h.playback, h.status, h.result, h.timeout⟩

/-- **One call keeps them in step.** Only a tick does something on both sides. -/
theorem InStep.serve (h : InStep p r) (hcancel : ∀ sent, call = .update sent → ¬ Cancels sent r)
    (env : Environment) :
    InStep (PlaybackRun.serve call.forPlayback p env).subject (serve call r env).subject ∧
      (AssignmentRun.serve call r env).env = (PlaybackRun.serve call.forPlayback p env).env := by
  cases call with
  | tick now b => exact h.tick now b env
  | update sent =>
    -- an update that cancels nothing is only written down
    have hc := hcancel sent rfl
    obtain ⟨remoteStatus, hr⟩ := update_of_not_cancels hc env
    refine ⟨?_, update_env_of_not_cancels hc env⟩
    rw [AssignmentRun.serve, hr]
    exact h.told remoteStatus
  | meanwhile change => exact ⟨h, rfl⟩
  -- what is on disk was read when the assignment began
  | stored tree => exact ⟨{ h with }, rfl⟩

/-- **The two stay in step**, whatever happens to the assignment short of a cancellation. -/
theorem InStep.serveAll (h : InStep p r) (hcancel : Uncancelled calls r env) :
    InStep (PlaybackRun.serveAll (calls.map AssignmentCall.forPlayback) p env).subject
        (serveAll calls r env).subject ∧
      (AssignmentRun.serveAll calls r env).env =
        (PlaybackRun.serveAll (calls.map AssignmentCall.forPlayback) p env).env := by
  -- the two environments are equal after every call, so the induction goes on with one of them
  induction calls generalizing p r env with
  | nil => exact ⟨h, rfl⟩
  | cons call calls ih =>
    have hfirst : ∀ sent, call = .update sent → ¬ Cancels sent r := by
      intro sent hsent
      subst hsent
      exact hcancel.head
    obtain ⟨hstep, henv⟩ := h.serve hfirst env
    have hrest := ih hstep hcancel.tail
    rw [henv] at hrest
    let served := AssignmentRun.serve call r env
    change InStep _ (AssignmentRun.serveAll calls served.subject served.env).subject ∧
      (AssignmentRun.serveAll calls served.subject served.env).env = _
    dsimp only [served]
    rw [henv]
    exact hrest

/-- From the tick on that loads the playlist, an assignment is worked on as a run of it is
played. -/
theorem works_in_step {playlist : Playlist} {alone : PlaybackRun} (hs : r.status = .pending)
    (hr : r.result = none) (ht : r.assignment.timeout = none) (hdue : r.assignment.isDue now)
    (hload : r.loader.playlist r.assignment.resourcePath = .ok playlist)
    (halone : PlaybackRun.Fresh playlist r.config alone)
    (hlimit : alone.timeout = r.config.timeout?)
    (hlistener : alone.listener = none) (hreporter : alone.reporter = r.reporter)
    (hcancel : Uncancelled (.tick now b :: calls) r env) :
    let begun := r.tick now b env
    begun.env = env ∧
      begun.subject = { r with playback := some (alone.headed r.runId r.startedAt) }.turned
        .running ∧
      let worked := serveAll calls begun.subject begun.env
      let played := PlaybackRun.serveAll (calls.map AssignmentCall.forPlayback) alone begun.env
      worked.env = played.env ∧
        InStep (played.subject.headed r.runId r.startedAt) worked.subject := by
  obtain ⟨hbegun, henv⟩ := tick_of_due hs hdue hload b env
  -- up to the heading, the playback that the assignment makes is `alone`
  rw [launched_eq halone hlimit hlistener hreporter] at hbegun
  have hfresh : (alone.headed r.runId r.startedAt).result = none := by
    rw [PlaybackRun.result_headed_eq_none_iff]
    exact halone.idle.2
  have hstep : InStep (alone.headed r.runId r.startedAt) (r.tick now b env).subject := by
    rw [hbegun]
    exact .begin hr ht hfresh
  have hrest : Uncancelled calls (r.tick now b env).subject (r.tick now b env).env := hcancel.tail
  obtain ⟨hworked, hplayed⟩ := hstep.serveAll hrest
  -- the heading makes no difference to what the calls do
  obtain ⟨hsubject, hsame⟩ := PlaybackRun.serveAll_headed r.runId r.startedAt
    (calls.map AssignmentCall.forPlayback) alone (r.tick now b env).env
  rw [hsubject] at hworked
  exact ⟨henv, hbegun, hplayed.trans hsame, hworked⟩

/-- **An assignment plays as its playlist would be played alone.** Take an assignment without a
limit, and let anything happen to it short of a cancellation, so that it finds its playlist on the
first tick on which it is due. Then

* the ticks before that one do nothing,
* that one makes it run, gives it a playback, and does nothing else,
* from then on the playback is, after whatever happens, what a run of the loaded playlist with the
  same settings would be that was given the later ticks only, and the environment is the same. Only
  the heading of that run may be another one. The status says what the run has come to, and its
  result is that of the assignment. -/
theorem plays_as_alone (h : Fresh a c r) (htimeout : a.timeout = none)
    {waiting rest : List AssignmentCall}
    (hcancel : Uncancelled (waiting ++ .tick now b :: rest) r env)
    (hearly : ∀ now b, .tick now b ∈ waiting → ¬ a.isDue now) (hdue : a.isDue now)
    {playlist : Playlist}
    (hload : (serveAll waiting r env).subject.loader.playlist a.resourcePath = .ok playlist)
    {alone : PlaybackRun} (halone : PlaybackRun.Fresh playlist c alone)
    (hlimit : alone.timeout = c.timeout?)
    (hlistener : alone.listener = none) (hreporter : alone.reporter = r.reporter) :
    (∀ front now b back, waiting = front ++ .tick now b :: back →
      let waited := serveAll front r env
      waited.subject.tick now b waited.env = .still waited.subject waited.env) ∧
    let waited := serveAll waiting r env
    let begun := waited.subject.tick now b waited.env
    begun.env = waited.env ∧
      begun.subject =
        { waited.subject with playback := some (alone.headed r.runId r.startedAt) }.turned
          .running ∧
      let worked := serveAll rest begun.subject begun.env
      let played := PlaybackRun.serveAll (rest.map AssignmentCall.forPlayback) alone begun.env
      worked.env = played.env ∧
        worked.subject.playback = some (played.subject.headed r.runId r.startedAt) ∧
        worked.subject.status = .ofResult played.subject.result ∧
        worked.subject.result = (played.subject.headed r.runId r.startedAt).result := by
  -- what is fresh is pending, and has the fields of the assignment that was handed over
  have hs : r.status = .pending := by rw [h.eq]; rfl
  have hdueIff : ∀ now, r.assignment.isDue now = a.isDue now := by
    intro now
    rw [h.eq]
    rfl
  have hidle : ∀ now b, .tick now b ∈ waiting → ¬ r.assignment.isDue now := by
    intro now b hb
    rw [hdueIff]
    exact hearly now b hb
  obtain ⟨hwait, hcancel⟩ := hcancel.of_append
  constructor
  · -- a tick while it waits: what came before was waiting, too, and it is too early
    intro front now b back hfront
    subst hfront
    have hwaits := waits_serveAll hs (fun now b hb => hidle now b (List.mem_append_left _ hb))
      hwait.of_append.1
    refine tick_of_early (hwaits.status.trans hs) ?_ b _
    rw [hwaits.isDue]
    exact hidle now b (List.mem_append_right _ List.mem_cons_self)
  · -- what has waited only differs from `r` in what was said about it and in what is on disk
    have hwaits := waits_serveAll hs hidle hwait
    have hresult : r.result = none := by rw [h.eq]; rfl
    have hlimitless : r.assignment.timeout = none := by rw [h.eq]; exact htimeout
    have hpath : r.assignment.resourcePath = a.resourcePath := by rw [h.eq]; rfl
    have hconfig : r.config = c := by rw [h.eq]; rfl
    subst hconfig
    dsimp only
    generalize (serveAll waiting r env).subject = waited at hwaits hload hcancel ⊢
    generalize (serveAll waiting r env).env = env at hcancel ⊢
    obtain ⟨remoteStatus, tree⟩ := hwaits
    rw [← hpath] at hload
    obtain ⟨henv, hbegun, hplayed, hstep⟩ := works_in_step
      (r := { r.told remoteStatus with loader := { r.loader with tree } }) hs hresult hlimitless
      ((hdueIff now).trans hdue) hload halone hlimit hlistener hreporter hcancel
    exact ⟨henv, hbegun, hplayed, hstep.playback, hstep.status.trans (ofResult_headed ..),
      hstep.result⟩

/-! An outing is an errand for the second minute, without a limit, and its segment is put on the
shelf while it waits. The remote side talks in between. -/

/-- Something to be done in the second minute. -/
def outing : Assignment := { Assignment.of 2 "quick" with startTime := some ⟨60, 0⟩ }

/-- A tick at some second. -/
def tickAt (seconds : Int) : AssignmentCall := .tick ⟨seconds, 0⟩ (PlaybackRun.second false)

/-- The remote side says that the outing is paused, which means nothing. -/
def paused : AssignmentCall := .update { outing with remoteStatus := some "PAUSED" }

/-- What happens until then. -/
def outingWaits : List AssignmentCall := [tickAt 58, paused, .stored shelf, tickAt 59]

/-- What happens from then on. The segment is taken off the shelf again, which does not matter any
more. -/
def outingGoesOn : List AssignmentCall := [tickAt 61, paused, .stored [], tickAt 62, tickAt 63]

/-- The outing when it has waited. -/
def outingWaited : Turn AssignmentRun :=
  serveAll outingWaits (.of outing .default [] "an-outing" 7) (.of .empty)

/-- Nobody cancels the outing. -/
theorem outing_uncancelled : Uncancelled (outingWaits ++ tickAt 60 :: outingGoesOn)
    (.of outing .default [] "an-outing" 7) (.of .empty) := by
  apply uncancelled_of_not_requested
  -- only one update is among the calls, and it does not ask for it
  intro sent hsent
  simp only [outingWaits, outingGoesOn, paused, tickAt, List.cons_append, List.nil_append,
    List.mem_cons, List.not_mem_nil, AssignmentCall.update.injEq, reduceCtorEq, false_or, or_false,
    or_self] at hsent
  subst hsent
  decide +kernel

/-- The outing begins with the second minute, is played, and completes, as its segment does
alone. -/
theorem outing_completes : ∃ playlist,
    outingWaited.subject.loader.playlist "quick" = .ok playlist ∧
    let begun := outingWaited.subject.tick ⟨60, 0⟩ (PlaybackRun.second false) outingWaited.env
    let worked := serveAll outingGoesOn begun.subject begun.env
    let played := PlaybackRun.serveAll (outingGoesOn.map AssignmentCall.forPlayback)
      (.of playlist .default "alone" 0) begun.env
    begun.subject.status = .running ∧ worked.subject.status = .completed ∧
      worked.subject.status = .ofResult played.subject.result := by
  have hloads : (outingWaited.subject.loader.playlist "quick").toOption.isSome = true := by
    decide +kernel
  obtain ⟨playlist, hplaylist⟩ : ∃ playlist,
      outingWaited.subject.loader.playlist "quick" = .ok playlist := by
    cases h : outingWaited.subject.loader.playlist "quick" with
    | error e => rw [h] at hloads; cases hloads
    | ok playlist => exact ⟨playlist, rfl⟩
  have hearly : ∀ now b, .tick now b ∈ outingWaits → ¬ outing.isDue now := by
    intro now b hb
    simp only [outingWaits, paused, tickAt, List.mem_cons, List.not_mem_nil,
      AssignmentCall.tick.injEq, reduceCtorEq, false_or, or_false] at hb
    -- both ticks come before the second minute
    rcases hb with ⟨rfl, -⟩ | ⟨rfl, -⟩ <;> decide
  obtain ⟨-, -, hbegun, -, -, hstatus, -⟩ := plays_as_alone (.of [] "an-outing" 7) (a := outing)
    (c := .default) rfl outing_uncancelled hearly (by decide) hplaylist (.of "alone" 0) rfl rfl rfl
  refine ⟨playlist, hplaylist, ?_, ?_, hstatus⟩
  · exact congrArg status hbegun
  · decide +kernel

end AssignmentRun

end Playtest

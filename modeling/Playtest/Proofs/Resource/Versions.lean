import Playtest.Proofs.Failing
import Playtest.Proofs.Playback.Reachable
import Playtest.Proofs.Segment.Versions
import Playtest.Resource.Loader

/-!
# Versions in what is loaded

Whoever loads a playlist looks at the versions of every document on the way: of the one that the
path means, of every document that an entry of a sequence points at, and of whatever an entry
carries itself. Making a list out of a segment and naming its segments changes no version, so that
all lists of the playlist are supported (`Loader.supported_playlist`).

`versions_agree` puts this together with what segments do about versions by themselves: nothing that
was loaded fails for a version, and what was not loaded fails before anything else happens.
-/

namespace Playtest

/-! ### What keeps versions -/

namespace Segment

/-- A name says nothing about versions. -/
theorem names_renamed_iff {s : Segment} {name : String} {v : Version} :
    Names { s with name } v ↔ s.Names v := by
  constructor
  · -- the version is named by the segment itself, its criteria or its action
    rintro (_ | ⟨hc, h⟩ | ha)
    · exact .own
    · exact .criteria hc h
    · exact .action ha
  · rintro (_ | ⟨hc, h⟩ | ha)
    · exact .own (s := { s with name })
    · exact .criteria (s := { s with name }) hc h
    · exact .action (s := { s with name }) ha

end Segment

namespace SegmentList

/-- A segment that was given a name is otherwise as it was. -/
theorem of_mem_nameFrom {list : String} {position : Nat} {ss : List Segment} {s : Segment}
    (hs : s ∈ nameFrom list position ss) : ∃ s₀ ∈ ss, s = { s₀ with name := s.name } := by
  induction ss generalizing position with
  | nil => cases hs
  | cons first rest ih =>
    rcases List.mem_cons.mp hs with rfl | hs
    · refine ⟨first, List.mem_cons_self, ?_⟩
      split <;> rfl
    · obtain ⟨s₀, hs₀, heq⟩ := ih hs
      exact ⟨s₀, List.mem_cons_of_mem _ hs₀, heq⟩

/-- A list stays supported when its segments are named. -/
theorem Supported.named_supported {l : SegmentList} (h : l.Supported) : l.named.Supported := by
  rintro v (_ | ⟨hs, hv⟩)
  · exact h _ .own
  · obtain ⟨s₀, hs₀, heq⟩ := of_mem_nameFrom hs
    rw [heq] at hv
    exact h.segment hs₀ v (Segment.names_renamed_iff.mp hv)

/-- The list that is made of a supported segment is supported. -/
theorem supported_ofSegment {s : Segment} (h : s.Supported) : (ofSegment s).Supported := by
  rintro v (_ | ⟨hs, hv⟩)
  · exact h _ .own
  · obtain rfl := List.mem_singleton.mp hs
    exact h v hv

end SegmentList

/-- A playlist is **supported** if all of its lists are. -/
def Playlist.Supported (p : Playlist) : Prop := ∀ l ∈ p.lists, l.Supported

namespace Resource

/-! ### Documents -/

namespace Document

/-- Too new is what is later than the current version. -/
theorem tooNew?_eq_none_iff {subject : String} {v : Version} :
    tooNew? subject v = none ↔ ¬ Version.current < v := by
  unfold tooNew?
  split
  · next h => exact iff_of_false (Option.some_ne_none _) (not_not_intro h)
  · next h => exact iff_of_true rfl h

/-- A list is not too new just if it is supported. -/
theorem listTooNew?_eq_none_iff {l : SegmentList} : listTooNew? l = none ↔ l.Supported :=
  tooNew?_eq_none_iff.trans l.not_current_lt_iff

/-- Neither is a segment. -/
theorem segmentTooNew?_eq_none_iff {s : Segment} : segmentTooNew? s = none ↔ s.Supported :=
  tooNew?_eq_none_iff.trans s.not_current_lt_iff

end Document

/-! ### Loading -/

namespace Loader

variable {l : Loader} {path file : String} {list : SegmentList}

/-- **What is loaded from a file** is what its text is read as, if that is not too new. -/
theorem ofFile_eq_ok_iff {document : Document} : l.ofFile file = .ok document ↔
    ∃ json, l.tree.read file = .ok json ∧ Document.ofText json = .ok document ∧
      document.unsupported? = none := by
  unfold ofFile
  constructor
  · -- reading, decoding and the version are looked at in this order
    intro h
    split at h
    · cases h
    · next json hread =>
      split at h
      · cases h
      · next found htext =>
        split at h
        · cases h
        · next hold =>
          obtain rfl := Except.ok.inj h
          exact ⟨json, hread, htext, hold⟩
  · rintro ⟨json, hread, htext, hold⟩
    simp only [hread, htext, hold]

/-- A document is loaded from the file that its path means. -/
theorem document_eq_ok_iff {document : Document} :
    l.document path = .ok document ↔
      ∃ file, l.file? path = some file ∧ l.ofFile file = .ok document := by
  unfold Loader.document
  cases l.file? path with
  | none => simp
  | some file => simp

/-- What is loaded is not too new. -/
theorem unsupported?_of_document {document : Document} (h : l.document path = .ok document) :
    document.unsupported? = none := by
  obtain ⟨file, -, hload⟩ := document_eq_ok_iff.mp h
  obtain ⟨json, -, -, hold⟩ := ofFile_eq_ok_iff.mp hload
  exact hold

/-- So the list that is made of it is supported. -/
theorem supported_listOf {kind : Option EntryKind} {document : Document}
    (hd : document.unsupported? = none) (h : listOf kind document = .ok list) : list.Supported := by
  cases document with
  | sequence s => cases h
  -- a list or a segment that is not expected makes no list
  | list l =>
    dsimp only [listOf] at h
    split at h
    · cases h
    · cases h
      exact Document.listTooNew?_eq_none_iff.mp hd
  | segment s =>
    dsimp only [listOf] at h
    split at h
    · cases h
    · cases h
      exact SegmentList.supported_ofSegment (Document.segmentTooNew?_eq_none_iff.mp hd)

/-- What an entry points at is looked at when it is loaded, and what it carries was looked at
before. -/
theorem supported_entryList {position : Nat} {e : Entry} (he : Document.entryTooNew? e = none)
    (h : l.entryList position e = .ok list) : list.Supported := by
  cases e with
  | list carried =>
    cases h
    exact (Document.listTooNew?_eq_none_iff.mp he).named_supported
  | segment carried =>
    cases h
    exact SegmentList.supported_ofSegment (Document.segmentTooNew?_eq_none_iff.mp he)
  -- what is referred to is looked at in its file
  | reference kind path =>
    dsimp only [entryList] at h
    split at h
    · next found hfound =>
      cases h
      obtain ⟨document, hdocument, hlist⟩ := Except.bind_eq_ok_iff.mp hfound
      exact supported_listOf (unsupported?_of_document hdocument) hlist
    · cases h

/-- So it is with all entries, one by one. -/
theorem supported_entryLists {position : Nat} {es : List Entry} {lists : List SegmentList}
    (he : ∀ e ∈ es, Document.entryTooNew? e = none) (h : l.entryLists position es = .ok lists) :
    ∀ list ∈ lists, list.Supported := by
  induction es generalizing position lists with
  | nil =>
    cases h
    rintro list ⟨⟩
  | cons e rest ih =>
    rw [List.forall_mem_cons] at he
    unfold entryLists at h
    -- the first entry has become a list, and so have the others
    obtain ⟨list, hlist, h⟩ := Except.bind_eq_ok_iff.mp h
    obtain ⟨more, hmore, h⟩ := Except.bind_eq_ok_iff.mp h
    cases h
    exact List.forall_mem_cons.mpr ⟨supported_entryList he.1 hlist, ih he.2 hmore⟩

/-- **What a sequence is resolved to is supported.** -/
theorem supported_resolve {s : Sequence} {p : Playlist} (h : l.resolve s = .ok p) :
    p.Supported := by
  unfold resolve at h
  split at h
  · cases h
  · next hnone =>
    obtain ⟨lists, hlists, rfl⟩ := Except.map_eq_ok_iff.mp h
    exact supported_entryLists (List.findSome?_eq_none_iff.mp hnone) hlists

/-- **Whatever is loaded is supported.** -/
theorem supported_playlist {p : Playlist} (h : l.playlist path = .ok p) : p.Supported := by
  obtain ⟨document, hdocument, hp⟩ := Except.bind_eq_ok_iff.mp h
  have hnone := unsupported?_of_document hdocument
  cases document with
  -- a sequence is resolved, while a list and a segment are what was loaded
  | sequence s => exact supported_resolve (Except.mapError_eq_ok_iff.mp hp)
  | list list =>
    cases hp
    exact List.forall_mem_singleton.mpr (Document.listTooNew?_eq_none_iff.mp hnone)
  | segment s =>
    cases hp
    have hs : s.Supported := Document.segmentTooNew?_eq_none_iff.mp hnone
    exact List.forall_mem_singleton.mpr (SegmentList.supported_ofSegment hs)

end Loader

/-- **Versions are treated alike everywhere.** What was loaded names no version that is later than
the current one, at any depth, and no segment of it ever fails for a fault of a version. A segment
that names a later one fails on its first tick, and asks nothing of anybody: no criteria decides
anything, no vision request is sent and no handler is called. In any other, neither evaluation nor
the start of the action ever finds a version to refuse. -/
theorem versions_agree :
    (∀ (l : Loader) (path : String) (p : Playlist), l.playlist path = .ok p → p.Supported ∧
      ∀ (c : Config) (r : PlaybackRun), PlaybackRun.Reachable p c r → ∀ s ∈ r.segments,
        s.state = .failed →
        ∃ (before : SegmentRun) (m : Moment) (env : Environment) (fault : SegmentRun.Fault),
          before.Reachable ∧ s = (before.tick m env).subject ∧ before.Faults m env fault ∧
            s.detail = some fault.reason ∧ fault.isOfVersion = false) ∧
    (∀ r : SegmentRun, r.Reachable → ¬ r.segment.Supported →
      (r.state = .pending ∨ r.state = .skipped ∨ r = r.origin.refusal) ∧
        (r.state = .pending → ∀ m env, (r.tick m env).subject = r.refusal ∧
          (r.tick m env).messages = r.refusalMessages ∧
            (r.tick m env).env = { env with vision := (r.tick m env).env.vision } ∧
              (r.tick m env).env.vision.submitted = env.vision.submitted)) ∧
    (∀ r : SegmentRun, r.segment.Supported →
      (∀ c ∈ r.segment.entryCriteria ++ r.segment.endCriteria, ∀ c' : Criteria, c'.Within c →
        ∀ view key n kind v,
          (Criteria.evaluateKeyed view key c' n).1 ≠ .error (.unsupported kind v)) ∧
      (∀ a, r.segment.action = some a → ¬ Version.current < a.apiVersion) ∧
        ∀ m env, ¬ r.state.isTerminal → (r.tick m env).subject.state = .failed →
          ∃ fault, r.Faults m env fault ∧ (r.tick m env).subject.detail = some fault.reason ∧
            fault.isOfVersion = false) := by
  -- a segment that fails does so for a fault, and a supported one has none of a version
  have hfault : ∀ (r : SegmentRun) m env, r.segment.Supported → ¬ r.state.isTerminal →
      (r.tick m env).subject.state = .failed →
        ∃ fault, r.Faults m env fault ∧ (r.tick m env).subject.detail = some fault.reason ∧
          fault.isOfVersion = false := by
    intro r m env hs hw hf
    obtain ⟨fault, hfault, hdetail⟩ := SegmentRun.tick_faults m env hw hf
    exact ⟨fault, hfault, hdetail, hfault.not_isOfVersion hs⟩
  refine ⟨fun l path p hp => ⟨Loader.supported_playlist hp, fun c r hr s hmem hf => ?_⟩,
    fun r h hs => ⟨?_, ?_⟩,
    fun r hs => ⟨fun c hc c' hin => SegmentRun.evaluateKeyed_ne_unsupported hs hc hin,
      fun a ha => ?_, fun m env => hfault r m env hs⟩⟩
  · -- the segment is one of the playlist, and it failed on some tick of its run
    obtain ⟨list, hlist, hsegment⟩ := hr.sound.segment_mem hmem
    have hs : s.segment.Supported := (Loader.supported_playlist hp list hlist).segment hsegment
    obtain ⟨before, m, env, hbefore, hw, rfl⟩ := (hr.segments_reachable s hmem).of_failed hf
    have hsame : (before.tick m env).subject.segment = before.segment := by
      have horigin := SegmentRun.origin_tick (r := before) m env
      injection horigin
    rw [hsame] at hs
    obtain ⟨fault, hfaults, hdetail, hversion⟩ := hfault before m env hs hw hf
    exact ⟨before, m, env, fault, hbefore, rfl, hfaults, hdetail, hversion⟩
  · exact h.of_unsupported hs
  · intro hp m env
    rw [SegmentRun.tick_of_unsupported h hp hs m env]
    exact ⟨rfl, rfl, rfl, rfl⟩
  · exact UInt32.not_lt.mpr (hs _ (.action ha))

/-! A library with one document of the current version, which waits for something that nobody knows,
and the same document of the version behind it. -/

/-- A document that names a version in the middle of a group. -/
def question (v : Version) : String :=
  "\x7b\"name\":\"Question\",\"endCriteria\":[\x7b\"type\":\"And\",\"data\":\x7b\"criteriaList\":"
    ++ "[\x7b\"type\":\"Custom\",\"apiVersion\":" ++ toString v.toNat
    ++ ",\"data\":\x7b\"name\":\"answer\"\x7d\x7d]\x7d\x7d]\x7d"

/-- The library, in which the question can be asked today. -/
def library : Loader := ⟨"", [(["today.json"], .text (question 12))]⟩

/-- The question as a playlist. -/
def todaysQuestion : Playlist :=
  match library.playlist "today" with
  | .ok p => p
  | .error _ => ⟨"", []⟩

/-- The run of today's question after some ticks. -/
def askedToday : Nat → PlaybackRun
  | 0 => .of todaysQuestion .default "today" 0
  | n + 1 => ((askedToday n).tick (PlaybackRun.second false) (.of .empty)).subject

/-- The question is asked in a run like any other. -/
theorem askedToday_reachable (n : Nat) :
    PlaybackRun.Reachable todaysQuestion .default (askedToday n) := by
  induction n with
  | zero => exact .fresh (.of "today" 0)
  | succ n ih => exact ih.tick _ _

/-- A segment that asks a question of some version. -/
def asking (v : Version) : SegmentRun :=
  .of { Segment.ofName "Question" with
    endCriteria := [.ofGroup .all [.single v false (.custom "answer" .null)]] } "Questions" 1 true

/-- The question names the version that it is asked in. -/
theorem asking_names (v : Version) : (asking v).segment.Names v := by
  have hin : Criteria.Within (.single v false (.custom "answer" .null))
      (.ofGroup .all [.single v false (.custom "answer" .null)]) :=
    .member List.mem_cons_self .self
  exact .criteria (List.mem_append_right _ List.mem_cons_self) hin

/-- Today's question fails because nobody knows the answer, and tomorrow's because nobody
understands it. -/
theorem questions_agree :
    (todaysQuestion.Supported ∧ ∃ s ∈ (askedToday 3).segments, ∃ fault : SegmentRun.Fault,
      s.state = .failed ∧ s.detail = some fault.reason ∧ fault.isOfVersion = false) ∧
    ((asking 13).tick ⟨1.0, .empty, none⟩ (.of .empty)).subject = (asking 13).refusal ∧
    ∀ view key, (Criteria.evaluateKeyed view key (.single 12 false (.custom "answer" .null))
      .none).1 ≠ .error (.unsupported .custom 12) := by
  have hloads : library.playlist "today" = .ok todaysQuestion := by
    have hok : (library.playlist "today").toOption.isSome = true := by decide +kernel
    unfold todaysQuestion
    cases h : library.playlist "today" with
    | error e =>
      rw [h] at hok
      cases hok
    | ok p => rfl
  obtain ⟨hsupported, hfails⟩ := versions_agree.1 library "today" todaysQuestion hloads
  have hany : ((askedToday 3).segments.any fun s => s.state == .failed) = true := by decide +kernel
  -- the question of today is among the segments, and it has failed
  obtain ⟨s, hmem, hstate⟩ := List.any_eq_true.mp hany
  have hstate : s.state = .failed := eq_of_beq hstate
  have hlate : ¬ (asking 13).segment.Supported :=
    fun h => absurd (h 13 (asking_names 13)) (by decide)
  have hsupports : (asking 12).segment.Supported := by
    rw [← Segment.not_current_lt_iff]
    decide
  obtain ⟨before, m, env, fault, -, -, -, hdetail, hversion⟩ :=
    hfails .default (askedToday 3) (askedToday_reachable 3) s hmem hstate
  refine ⟨⟨hsupported, s, hmem, fault, hstate, hdetail, hversion⟩, ?_, fun view key => ?_⟩
  · -- tomorrow it is too new before anything is evaluated
    exact ((versions_agree.2.1 (asking 13) (.of ..) hlate).2 rfl _ _).1
  · exact (versions_agree.2.2 (asking 12) hsupports).1
      _ (List.mem_append_right _ List.mem_cons_self) _
      (.member List.mem_cons_self .self) view key .none .custom 12

end Resource

end Playtest

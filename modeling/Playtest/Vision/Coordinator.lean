import Playtest.Criteria.Key
import Playtest.Log
import Playtest.Scene.Snapshot
import Playtest.Vision.Reply
import Playtest.Vision.Request

/-!
# Coordinating vision requests

The coordinator keeps one request in flight for every vision criteria that is being looked at. Each
request has an index of its own, which only ever goes up, so that a late reply to an abandoned
request is never taken for the reply to a newer one. The service writes its replies into a table by
index.

* `Coordinator.prepare` sends the requests that are needed,
* `Coordinator.reply` is what is known about the request under a key,
* `Coordinator.release` abandons the requests under all keys that begin alike.
-/

namespace Playtest.Vision

open Playtest.Scene

/-- The replies that were recorded, by index. -/
abbrev Replies := List (UInt64 × Reply)

namespace Replies

/-- The reply recorded under an index. -/
def get? (rs : Replies) (index : UInt64) : Option Reply :=
  (rs.find? fun r => r.1 == index).map (·.2)

/-- The table without an index. -/
def erase (rs : Replies) (index : UInt64) : Replies := rs.filter fun r => r.1 != index

/-- Records a reply in place of an earlier one. -/
def record (rs : Replies) (index : UInt64) (reply : Reply) : Replies :=
  (index, reply) :: rs.erase index

end Replies

/-- What a service does with a request: replies that it records at once, and perhaps the reason why
it could not take the request. A longer text of the reason is for logs. -/
structure Submission where
  recorded : List (UInt64 × Reply)
  failure : Option (String × String)

/-- A service. What it does may depend on all requests that were sent before. -/
abbrev Service := List Request → Request → Submission

/-- The requests in flight. -/
structure Coordinator where
  service : Option Service
  replies : Replies
  nextIndex : UInt64
  outstanding : List (Key × UInt64)
  /-- All requests that were sent, the first one first. -/
  submitted : List Request

namespace Coordinator

/-- A coordinator for a service; without one nothing is ever sent. -/
def of (service : Option Service) : Coordinator := ⟨service, [], 0, [], []⟩

/-- The index of the request under a key. -/
def index? (c : Coordinator) (key : Key) : Option UInt64 :=
  (c.outstanding.find? fun entry => entry.1 == key).map (·.2)

/-- What is known about the request under a key. -/
def reply (c : Coordinator) (key : Key) : Option Reply := (c.index? key).bind c.replies.get?

/-- Abandons everything. Indices go on from where they were. -/
def reset (c : Coordinator) : Coordinator := { c with outstanding := [], replies := [] }

/-- Records a reply. -/
def record (c : Coordinator) (index : UInt64) (reply : Reply) : Coordinator :=
  { c with replies := c.replies.record index reply }

/-- Whether the key needs a new request: it has none, or one that brought nothing. -/
def needsRequest (c : Coordinator) (key : Key) : Bool :=
  match c.index? key with
  | none => true
  | some index =>
      match c.replies.get? index with
      | none | some .notMatched | some (.failed _) => true
      | some .pending | some .matched => false

/-- The coordinator after the key has got a request under the next index, whose reply is pending. -/
def enter (c : Coordinator) (key : Key) (request : Request) : Coordinator :=
  let index := c.nextIndex
  let kept := match c.index? key with
    | some previous => c.replies.erase previous
    | none => c.replies
  { c with
    nextIndex := index + 1
    outstanding := (key, index) :: c.outstanding.filter fun entry => entry.1 != key
    replies := kept.record index .pending
    submitted := c.submitted ++ [request] }

/-- Sends a request for a key, if there is a service and a screenshot. -/
def submit (c : Coordinator) (key : Key) (query : VisionQuery) (snapshot : Snapshot) :
    Coordinator × List LogMessage :=
  match c.service, snapshot.screenshot with
  | none, _ => (c, [])
  | some _, none =>
      (c, [⟨.debug,
        s!"No screenshot in frame {snapshot.frame.toNat}, waiting to request `{key}`"⟩])
  | some service, some screenshot =>
      let index := c.nextIndex
      let (request, misuse) := Request.of screenshot query.textQuery query.imageQuery
        query.withinRect query.threshold index
      let submission := service c.submitted request
      let opened := c.enter key request
      let recorded := { opened with
        replies := submission.recorded.foldl (fun rs r => rs.record r.1 r.2) opened.replies }
      let sent : LogMessage := ⟨.debug, s!"Submitting vision request {index.toNat} for `{key}`"⟩
      match submission.failure with
      | none => (recorded, misuse ++ [sent])
      | some (reason, long) =>
          (recorded.record index (.failed reason), misuse ++ [sent,
            ⟨.warn, s!"Failed to submit vision request {index.toNat} for `{key}`: {long}"⟩])

/-- The query of a vision criteria. -/
def query? : Criteria → Option VisionQuery
  | .single _ _ (.vision _ query) => some query
  | _ => none

/-- The vision criteria among some criteria, with their keys. -/
def wanted (parent : Key) (cs : List Criteria) : List (Key × VisionQuery) :=
  (Criteria.withKeys parent cs).filterMap fun entry => (query? entry.2).map fun q => (entry.1, q)

/-- Sends the requests that some keys need. -/
def prepareKeys (snapshot : Snapshot) :
    Coordinator → List (Key × VisionQuery) → Coordinator × List LogMessage
  | c, [] => (c, [])
  | c, (key, query) :: rest =>
      if c.needsRequest key then
        let (c, messages) := c.submit key query snapshot
        let (c, more) := prepareKeys snapshot c rest
        (c, messages ++ more)
      else prepareKeys snapshot c rest

/-- **Makes sure that every vision criteria has a request** that may still bring something. -/
def prepare (c : Coordinator) (parent : Key) (cs : List Criteria) (snapshot : Snapshot) :
    Coordinator × List LogMessage :=
  prepareKeys snapshot c (wanted parent cs)

/-- Whether a key begins with a text. -/
def beginsWith (key : Key) (start : String) : Bool := start.toList.isPrefixOf key.toList

/-- **Abandons the requests** under all keys that begin with a text. -/
def release (c : Coordinator) (start : String) : Coordinator :=
  let dropped := c.outstanding.filter fun entry => beginsWith entry.1 start
  { c with
    outstanding := c.outstanding.filter fun entry => !beginsWith entry.1 start
    replies := dropped.foldl (fun rs entry => rs.erase entry.2) c.replies }

end Coordinator

end Playtest.Vision

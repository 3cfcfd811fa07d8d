import Choreography.Await
import Choreography.Journal
import Choreography.Rule

/-! The where-stage of a rule. All frames go through the where-clause together; if
that raises, each goes alone, so that one bad frame costs no other. What comes
back is checked: a frame must rest on the same invocations as one that went in,
and must not change what that one bound. A frame that rests on something that
cannot be looked up breaks the check off, and the stage with it. -/

namespace Choreography

/-- How far the where-stage has come. -/
inductive Enriching where
  /-- Waits for the where-clause of all frames, until a moment if there is a limit. -/
  | batch (frames : Frames) (ends : Option Instant)
  | isolating (kept left : Frames)
  /-- Waits for the where-clause of one frame. -/
  | single (frame : Frame) (kept left : Frames) (ends : Option Instant)
  | finished (frames : Frames)
  | raised (error : Error)

/-- What the where-stage works on and within which limit. -/
structure Enrichment where
  rule : Rule
  trigger : Invocation
  limit : Option Seconds

/-- A stage after some work, with its cascade and what was seen. -/
structure StageTurn (σ : Type) where
  stage : σ
  cascade : Cascade
  events : List Event := []

/-- Why one of the things that came back is dropped. -/
structure Rejection where
  what : Mishap
  source : Option String := none

/-- What becomes of one of the things that came back. -/
inductive Ruling where
  | keep (frame : Frame)
  | drop (rejection : Rejection)
  | fail (error : Error)

namespace Basis

/-- Why it cannot be looked up, if it cannot: for the first of its members that cannot. -/
def flaw? : Basis → Option Error
  | .support _ => none
  | .tuple members => members.findSome? Error.notAKey?
  | .value v => Error.notAKey? v

/-- Whether it counts as a support of invocations. -/
def isOn : Basis → List InvocationId → Bool
  | .support ids, wanted => ids == wanted
  | .tuple members, wanted => (Value.list members).agrees (.list (wanted.map .int))
  | .value _, _ => false

end Basis

namespace Enrichment

/-- The input frame that a returned frame descends from. -/
def origin? (inputs : Frames) (out : Draft) : Option Frame :=
  inputs.reverse.find? fun f => out.basis.isOn f.support

/-- Checks one of the things that came back. -/
def judge (rule : Rule) (inputs : Frames) : Item → Ruling
  | .value v => .drop { what := .whereReturnedItem rule.name v.typeName }
  | .other name => .drop { what := .whereReturnedItem rule.name name }
  | .draft out =>
    match out.basis.flaw?, origin? inputs out with
    | some error, _ => .fail error
    | none, none => .drop { what := .foreignFrame rule.name }
    | none, some origin =>
      match origin.extend out.bindings with
      | .ok frame => .keep frame
      | .error conflict =>
        let cause := conflict.failure.cause
        .drop { what := .rebound cause.message, source := some cause.name }

/-- Checks everything that came back, in order: frames kept, and the rest rejected. An
error breaks the check off, and nothing is kept. -/
def judgeAll (rule : Rule) (inputs : Frames) : List Item → Except Error Frames × List Rejection
  | [] => (.ok [], [])
  | item :: rest =>
    match judge rule inputs item with
    | .keep frame =>
      let later := judgeAll rule inputs rest
      (later.1.map (frame :: ·), later.2)
    | .drop rejection =>
      let later := judgeAll rule inputs rest
      (later.1, rejection :: later.2)
    | .fail error => (.error error, [])

/-- What is left of what came back. Something that is no sequence is rejected whole. -/
def validate (rule : Rule) (inputs : Frames) : Returned → Except Error Frames × List Rejection
  | .drafts ds => judgeAll rule inputs (ds.map .draft)
  | .sequence _ items => judgeAll rule inputs items
  | .value (.list values) => judgeAll rule inputs (values.map .value)
  | .value v => (.ok [], [{ what := .whereReturned rule.name v.typeName }])
  | .other name => (.ok [], [{ what := .whereReturned rule.name name }])

/-- The stage after a check: it goes on with what is left, or ends with an error. -/
def afterCheck (next : Frames → Enriching) : Except Error Frames → Enriching
  | .ok kept => next kept
  | .error error => .raised error

/-- A fault of this stage. -/
def fault (e : Enrichment) (c : Cascade) (rejection : Rejection) : Failure :=
  .of (.mishap rejection.what rejection.source)
    { rule := some e.rule.name
      invocation := some e.trigger.id
      root := some c.root
      depth := some e.trigger.depth }

/-- Reports rejections, one after the other. -/
def report (e : Enrichment) (c : Cascade) (rejected : List Rejection) : Cascade × List Event :=
  let faults := rejected.map (e.fault c)
  (faults.foldl Cascade.recordFault c, faults.map .fault)

/-- Begins the stage. Without a where-clause, or without frames, there is nothing to do. -/
def start (e : Enrichment) (frames : Frames) (c : Cascade) (now : Instant) :
    StageTurn Enriching :=
  if e.rule.enrich.isNone || frames.isEmpty then { stage := .finished frames, cascade := c }
  else
    match c.beginWait now with
    | (.error stop, c) => { stage := .raised stop, cascade := c }
    | (.ok (), c) => { stage := .batch frames (c.waitEnd e.limit now), cascade := c }

def isolationNote (e : Enrichment) (c : Cascade) (frames : Frames) : LogRecord where
  level := .warning
  logger := "concord.services.enrichment"
  message := s!"where of {e.rule.name} failed on a batch of {frames.length}; isolating frames"
  extra := [("rule", .text e.rule.name), ("cascade_root", .int c.root)]

/-- After the where-clause of all frames. -/
def afterBatch (e : Enrichment) (frames : Frames) (c : Cascade) :
    Except Error Returned → StageTurn Enriching
  | .ok returned =>
    let (checked, rejected) := validate e.rule frames returned
    let (cascade, events) := e.report c rejected
    { stage := afterCheck .finished checked, cascade, events }
  | .error (.plain .cascadeCancelled text) =>
    { stage := .raised (.plain .cascadeCancelled text), cascade := c }
  | .error (.plain .cancelled text) => { stage := .raised (.plain .cancelled text), cascade := c }
  | .error (.plain .taskTimeout text) =>
    let what := .whereTimedOut e.rule.name e.limit frames.length
    let source := some (Error.plain .taskTimeout text).name
    let (cascade, events) := e.report c [{ what, source }]
    { stage := .finished [], cascade, events }
  | .error error =>
    match frames with
    | [_] =>
      let what := .whereFailed e.rule.name error.text
      let (cascade, events) := e.report c [{ what, source := some error.name }]
      { stage := .finished [], cascade, events }
    | _ =>
      { stage := .isolating [] frames, cascade := c, events := [.note (e.isolationNote c frames)] }

/-- After the where-clause of one frame. -/
def afterSingle (e : Enrichment) (frame : Frame) (kept left : Frames) (c : Cascade) :
    Except Error Returned → StageTurn Enriching
  | .ok returned =>
    let (checked, rejected) := validate e.rule [frame] returned
    let (cascade, events) := e.report c rejected
    { stage := afterCheck (fun more => .isolating (kept ++ more) left) checked, cascade, events }
  | .error (.plain .cascadeCancelled text) =>
    { stage := .raised (.plain .cascadeCancelled text), cascade := c }
  | .error (.plain .cancelled text) => { stage := .raised (.plain .cancelled text), cascade := c }
  | .error error =>
    let what := .whereFailedFor e.rule.name frame.support error.text
    let (cascade, events) := e.report c [{ what, source := some error.name }]
    { stage := .isolating kept left, cascade, events }

/-- One step of a stage that waits for nothing. -/
def step (e : Enrichment) (now : Instant) (c : Cascade) : Enriching → StageTurn Enriching
  | .isolating kept [] => { stage := .finished kept, cascade := c }
  | .isolating kept (frame :: left) =>
    match c.beginWait now with
    | (.error stop, c) => { stage := .raised stop, cascade := c }
    | (.ok (), c) => { stage := .single frame kept left (c.waitEnd e.limit now), cascade := c }
  | stage => { stage, cascade := c }

/-- Goes on after a wait. -/
def resume (e : Enrichment) (now : Instant) (c : Cascade) (outcome : Outcome Returned) :
    Enriching → StageTurn Enriching
  | .batch frames _ =>
    let (result, c) := c.endWait now outcome
    e.afterBatch frames c result
  | .single frame kept left _ =>
    let (result, c) := c.endWait now outcome
    e.afterSingle frame kept left c result
  | stage => { stage, cascade := c }

end Enrichment

end Choreography

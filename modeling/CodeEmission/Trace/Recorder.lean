import CodeEmission.Trace.Event
import CodeEmission.Trace.Ring

/-!
# Recording a Trace

A tracer is a level and a list of stores: streams, which write each event as it comes, and rings,
which keep the newest events. A store has a level of its own and numbers the events that it admits;
all stores count on one counter, so two stores never use the same number.

A recorder joins a tracer, the writer behind its streams and the counters. Its operations are
functions from a recorder to a recorder: opening a span, adding a remark to it, closing it, marking
a point.

A span that the level does not receive is disabled: it has no number and closing it records nothing.
Remarks belong to the span, so a remark that is added after the span was closed also shows in the
closing events that a ring still holds, if these had remarks at all.
-/

namespace CodeEmission.Trace

/-- An event held in memory. `bySpan` tells a closing event of a span, whose remarks are the span's
own, from one that was recorded as it stands. -/
structure Held where
  /-- The event. -/
  event : Event
  /-- Whether the remarks are those of a span. -/
  bySpan : Bool := false
  deriving DecidableEq, Repr, Inhabited

/-- A remark of a span reaches the closing events of the span that are still held and have
remarks. -/
def Held.remark (id : UInt64) (key value : String) (h : Held) : Held :=
  if h.bySpan && h.event.span = id && !h.event.extras.isEmpty then
    { h with event := { h.event with extras := h.event.extras.insert key value } }
  else h

/-- A place for events. -/
inductive Store where
  | stream (level : Level) (format : Format)
  | ring (level : Level) (ring : Ring Held)
  deriving Repr, Inhabited

/-- A level and the places for what it admits. -/
structure Tracer where
  /-- The level at which spans and points are recorded. -/
  level : Level := .off
  /-- The stores, in the order in which they receive an event. -/
  stores : List Store := []
  deriving Repr, Inhabited

/-- How a trace is asked for. -/
structure Request where
  /-- The level. -/
  level : Level
  /-- The storage mode. -/
  storage : Storage
  /-- The format of what is streamed, if it is fixed; otherwise the path decides. -/
  format? : Option Format := none
  /-- The path of the trace file; only its ending matters here. -/
  path : String := ""
  /-- How many events a ring is to hold. -/
  ringSize : Int64 := 0
  deriving DecidableEq, Repr, Inhabited

namespace Request

/-- The format of what is streamed. -/
def format (q : Request) : Format :=
  q.format?.getD (.ofPath q.path)

/-- Whether a writer is needed. -/
def streams (q : Request) : Bool :=
  q.level.isOn && (q.storage = .stream || q.storage = .both)

/-- The tracer that a request describes. When tracing is off, nothing else matters. -/
def tracer (q : Request) : Except SetupError Tracer :=
  let stream := Store.stream q.level q.format
  let ring := Store.ring q.level (.ofRequest q.ringSize)
  if !q.level.isOn then .ok {}
  else match q.storage with
    | .stream => .ok { level := q.level, stores := [stream] }
    | .ring => .ok { level := q.level, stores := [ring] }
    | .both => .ok { level := q.level, stores := [stream, ring] }
    | .unassigned => .error .unassignedStorage

end Request

namespace Tracer

/-- A tracer that writes each event as it comes. -/
def ofStream (level : Level) (format : Format) : Tracer :=
  { level, stores := [.stream level format] }

/-- A tracer that keeps the newest events. -/
def ofRing (level : Level) (size : Int64) : Tracer :=
  { level, stores := [.ring level (.ofRequest size)] }

/-- The first ring of a tracer. -/
def ring? (t : Tracer) : Option (Ring Held) :=
  t.stores.findSome? fun
    | .ring _ r => some r
    | .stream _ _ => none

/-- The events of the first ring, oldest first. -/
def snapshot? (t : Tracer) : Option (List Event) :=
  t.ring?.map fun r => r.toList.map Held.event

end Tracer

/-- The writer behind the streams of a tracer. -/
structure Writer where
  /-- What was written, one entry for each event. -/
  written : Array String := #[]
  /-- Whether it can be flushed and closed; a plain writer has neither. -/
  managed : Bool := false
  /-- The text of the failure of every flush, if flushing fails. -/
  flushFailure? : Option String := none
  /-- The text of the failure of every close, if closing fails. -/
  closeFailure? : Option String := none
  /-- How often it was flushed. -/
  flushes : Nat := 0
  /-- How often it was closed. -/
  closes : Nat := 0
  deriving Repr, Inhabited

namespace Writer

/-- Flush, if the writer can. -/
def flush (w : Writer) : Option String × Writer :=
  if w.managed then (w.flushFailure?, { w with flushes := w.flushes + 1 }) else (none, w)

/-- Flush and then close, if the writer can. A failed flush leaves it open. -/
def close (w : Writer) : Option String × Writer :=
  match w.flush with
  | (some failure, w) => (some failure, w)
  | (none, w) =>
    if w.managed then (w.closeFailure?, { w with closes := w.closes + 1 }) else (none, w)

end Writer

/-- A span. A disabled one is not recorded and takes no remarks. -/
structure Span where
  /-- Whether it is recorded. -/
  enabled : Bool := false
  /-- Its number; zero when it is disabled. -/
  id : UInt64 := 0
  /-- The number of the enclosing span. -/
  parent : UInt64 := 0
  /-- How fine it is. -/
  scope : Scope := ⟨0⟩
  /-- What it spans. -/
  name : String := ""
  /-- The remarks added so far. -/
  extras : Extras := {}
  deriving DecidableEq, Repr, Inhabited

/-- A tracer at work. -/
structure Recorder where
  /-- Where events go. -/
  tracer : Tracer := {}
  /-- The writer behind the streams. -/
  writer : Writer := {}
  /-- The last number given to an event. -/
  lastSeq : UInt64 := 0
  /-- The last number given to a span. -/
  lastSpan : UInt64 := 0
  /-- The reading of the clock that events are stamped with. -/
  now : Int := 0
  deriving Repr, Inhabited

namespace Recorder

/-- One store receives an event: it numbers the event and writes or keeps it, if its level admits
the scope. -/
def receive (h : Held) : Store → Writer → UInt64 → Store × Writer × UInt64
  | .stream level format, w, seq =>
    if level.admits h.event.scope then
      (.stream level format,
        { w with written := w.written.push ({ h.event with seq := seq + 1 }.render format) },
        seq + 1)
    else (.stream level format, w, seq)
  | .ring level ring, w, seq =>
    if level.admits h.event.scope then
      (.ring level (ring.push { h with event := { h.event with seq := seq + 1 } }), w, seq + 1)
    else (.ring level ring, w, seq)

/-- All stores in turn receive an event. -/
def receiveAll (h : Held) : List Store → Writer → UInt64 → List Store × Writer × UInt64
  | [], w, seq => ([], w, seq)
  | s :: rest, w, seq =>
    let (s', w', seq') := receive h s w seq
    let (rest', w'', seq'') := receiveAll h rest w' seq'
    (s' :: rest', w'', seq'')

/-- Hand an event to all stores. -/
def record (r : Recorder) (h : Held) : Recorder :=
  let (stores, writer, lastSeq) := receiveAll h r.tracer.stores r.writer r.lastSeq
  { r with tracer := { r.tracer with stores }, writer, lastSeq }

/-- Record an event as it stands, but for its number. -/
def emit (r : Recorder) (e : Event) : Recorder :=
  r.record { event := e }

/-- Whether spans and points of a scope are recorded. -/
def admits (r : Recorder) (s : Scope) : Bool :=
  r.tracer.level.isOn && r.tracer.level.admits s

/-- Open a span. -/
def openSpan (r : Recorder) (scope : Scope) (name : String) (parent : UInt64) : Span × Recorder :=
  if r.admits scope then
    -- the number is taken before the opening event is recorded
    let id := r.lastSpan + 1
    let r := { r with lastSpan := id }
    ({ enabled := true, id, parent, scope, name },
      r.emit { time := r.now, kind := .opens, scope, span := id, parent, name })
  else ({}, r)

/-- Close a span. -/
def closeSpan (r : Recorder) (s : Span) (detail : String) : Recorder :=
  if s.enabled then
    r.record {
      event := {
        time := r.now, kind := .closes, scope := s.scope, span := s.id, parent := s.parent,
        name := s.name, detail, extras := s.extras }
      bySpan := true }
  else r

/-- Mark a point. -/
def point (r : Recorder) (scope : Scope) (name detail : String) (parent : UInt64) : Recorder :=
  if r.admits scope then
    r.emit { time := r.now, kind := .point, scope, parent, name, detail }
  else r

/-- Add a remark to a span. -/
def annotate (r : Recorder) (s : Span) (key value : String) : Span × Recorder :=
  if s.enabled then
    let stores := r.tracer.stores.map fun
      | .stream level format => .stream level format
      | .ring level ring => .ring level (ring.map (Held.remark s.id key value))
    ({ s with extras := s.extras.insert key value },
      { r with tracer := { r.tracer with stores } })
  else (s, r)

/-- Flush or close the writer once for every stream and collect the failures. -/
def eachStream (act : Writer → Option String × Writer) :
    List Store → Writer → List String × Writer
  | [], w => ([], w)
  | .ring _ _ :: rest, w => eachStream act rest w
  | .stream _ _ :: rest, w =>
    let (failure, w) := act w
    let (failures, w) := eachStream act rest w
    (failure.toList ++ failures, w)

/-- Flush the streams. The failures are in the order of the stores. -/
def flush (r : Recorder) : List String × Recorder :=
  let (failures, writer) := eachStream Writer.flush r.tracer.stores r.writer
  (failures, { r with writer })

/-- Flush and close the streams. The failures are in the order of the stores. -/
def close (r : Recorder) : List String × Recorder :=
  let (failures, writer) := eachStream Writer.close r.tracer.stores r.writer
  (failures, { r with writer })

end Recorder

/-- One entry of a log: a span opens, the innermost open span closes, or a point is marked. A log
is independent of any recorder; playing it on one records the events that the level admits. -/
inductive Act where
  | opens (scope : Scope) (name : String)
  | closes (detail : String) (extras : List (String × String))
  | point (scope : Scope) (name detail : String)
  deriving DecidableEq, Repr

/-- The enclosing span after a span is entered; a disabled one encloses nothing. -/
def enter (outer id : UInt64) : UInt64 :=
  if id = 0 then outer else id

/-- The number of the innermost recorded span, or the caller's span when none is recorded. -/
def enclosing (caller : UInt64) : List Span → UInt64
  | [] => caller
  | s :: rest => if s.id = 0 then enclosing caller rest else s.id

/-- Play a log under the spans that are open, innermost first. -/
def playUnder (caller : UInt64) : List Span → List Act → Recorder → Recorder
  | _, [], r => r
  | spans, .opens scope name :: rest, r =>
    let (s, r) := r.openSpan scope name (enclosing caller spans)
    playUnder caller (s :: spans) rest r
  | [], .closes _ _ :: rest, r => playUnder caller [] rest r
  | s :: spans, .closes detail extras :: rest, r =>
    let (s, r) := extras.foldl (fun (s, r) (k, v) => r.annotate s k v) (s, r)
    playUnder caller spans rest (r.closeSpan s detail)
  | spans, .point scope name detail :: rest, r =>
    playUnder caller spans rest (r.point scope name detail (enclosing caller spans))

/-- Play a log inside the caller's span. -/
def play (caller : UInt64) (acts : List Act) (r : Recorder) : Recorder :=
  playUnder caller [] acts r

end CodeEmission.Trace

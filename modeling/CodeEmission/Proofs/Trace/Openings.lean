import CodeEmission.Proofs.Trace.Newest
import CodeEmission.Trace.Recorder

/-!
# The Spans That a Trace Shows

A log is played on a recorder, whose level decides what is recorded and whose stores keep it. This
module follows the spans of one scope, which the level admits, from the log to the stores.

* `Recorder.ShowsSpans`: what the stores of a recorder show is that exactly the named spans of a
  scope were opened, in that order. A ring shows this of the newest events.
* `Recorder.Follows.record`: a recorded event adds the span that it opens and nothing else.
* `Recorder.showsSpans_play`: after a log has been played, the stores show the spans that it opens.
-/

namespace CodeEmission.Trace

/-- The name of the span of a scope that an event opens, if it opens one. -/
def Event.opening? (scope : Scope) (e : Event) : Option String :=
  if e.kind = .opens ∧ e.scope = scope then some e.name else none

/-- The name of the span of a scope that an entry of a log opens, if it opens one. -/
def Act.opening? (scope : Scope) : Act → Option String
  | .opens s name => if s = scope then some name else none
  | .closes _ _ | .point _ _ _ => none

/-- What the stores of a recorder that was made for a request show of the spans of a scope. A stream
has written every event, and a ring has kept as many as it has room for. -/
def Recorder.ShowsSpans (q : Request) (scope : Scope) (names : List String) (r : Recorder) : Prop :=
  (q.streams = true → ∃ events : List Event,
      r.writer.written.toList = events.map (Event.render q.format) ∧
        events.filterMap (Event.opening? scope) = names) ∧
    ∀ kept, r.tracer.snapshot? = some kept → ∃ events : List Event,
      kept = events.rtake (Ring.ofRequest q.ringSize : Ring Held).capacity ∧
        events.filterMap (Event.opening? scope) = names

variable {q : Request} {scope : Scope} {names : List String} {r : Recorder}

/-- The names of the spans that held events open. -/
def openings (scope : Scope) (heard : List Held) : List String :=
  heard.filterMap fun h => h.event.opening? scope

theorem openings_concat (scope : Scope) (heard : List Held) (h : Held) :
    openings scope (heard ++ [h]) = openings scope heard ++ (h.event.opening? scope).toList := by
  cases hopening : h.event.opening? scope <;> simp [openings, hopening]

/-- A remark changes no opening. -/
theorem openings_map_remark (scope : Scope) (id : UInt64) (key value : String) (heard : List Held) :
    openings scope (heard.map (Held.remark id key value)) = openings scope heard := by
  rw [openings, openings, List.filterMap_map]
  refine List.filterMap_congr fun h _ => ?_
  simp only [Function.comp_apply, Held.remark]
  split <;> rfl

/-- A level that admits anything is on. -/
theorem isOn_of_admits (hscope : q.level.admits scope = true) : q.level.isOn = true := by
  cases hlevel : q.level <;> simp [hlevel, Level.admits, Level.isOn] at hscope ⊢

/-- A level that admits the scope of a span admits the event that opens it. -/
theorem opening?_eq_none (hscope : q.level.admits scope = true) {e : Event}
    (he : ¬ q.level.admits e.scope = true) : e.opening? scope = none := by
  rw [Event.opening?, if_neg]
  rintro ⟨-, rfl⟩
  exact he hscope

/-! ## Stores -/

/-- A ring of the requested size that was handed events in which the named spans are opened. -/
def Ring.Heard (q : Request) (scope : Scope) (names : List String) (ring : Ring Held) : Prop :=
  ring.capacity = (Ring.ofRequest q.ringSize : Ring Held).capacity ∧
    ∃ heard, ring.Holds heard ∧ openings scope heard = names

/-- What a writer holds after events in which the named spans are opened. -/
def Writer.Heard (q : Request) (scope : Scope) (names : List String) (w : Writer) : Prop :=
  ∃ heard : List Held, w.written.toList = heard.map (fun h => h.event.render q.format) ∧
    openings scope heard = names

/-- The state of a recorder of a request after the named spans were opened: its streams come first
and have written all events, and its rings were handed them. -/
structure Recorder.Follows (q : Request) (scope : Scope) (names : List String) (r : Recorder) :
    Prop where
  level : r.tracer.level = q.level
  stores : ∃ rings : List (Ring Held),
    r.tracer.stores =
        (if q.streams then [.stream q.level q.format] else []) ++ rings.map (.ring q.level) ∧
      ∀ ring ∈ rings, ring.Heard q scope names
  written : q.streams = true → r.writer.Heard q scope names

/-- A ring that is handed an event has heard the span that it opens. -/
theorem Ring.Heard.push {ring : Ring Held} (hring : ring.Heard q scope names) (h : Held) :
    (ring.push h).Heard q scope (names ++ (h.event.opening? scope).toList) := by
  obtain ⟨hcapacity, heard, hholds, rfl⟩ := hring
  exact ⟨by simpa using hcapacity, heard ++ [h], hholds.push h, openings_concat scope heard h⟩

/-- Rings take an event each with a number of its own and leave the writer alone. -/
theorem Recorder.receiveAll_rings (hscope : q.level.admits scope = true) (h : Held) (w : Writer)
    (seq : UInt64) {rings : List (Ring Held)} (hrings : ∀ ring ∈ rings, ring.Heard q scope names) :
    ∃ (rings' : List (Ring Held)) (seq' : UInt64),
      receiveAll h (rings.map (.ring q.level)) w seq = (rings'.map (.ring q.level), w, seq') ∧
        ∀ ring ∈ rings', ring.Heard q scope (names ++ (h.event.opening? scope).toList) := by
  induction rings generalizing seq with
  | nil => exact ⟨[], seq, rfl, nofun⟩
  | cons ring rest ih =>
    have hfirst := hrings ring List.mem_cons_self
    have hrest : ∀ other ∈ rest, other.Heard q scope names :=
      fun other hother => hrings other (List.mem_cons_of_mem _ hother)
    by_cases hadmits : q.level.admits h.event.scope = true
    · obtain ⟨rest', seq', hreceive, hheard⟩ := ih (seq + 1) hrest
      refine ⟨ring.push { h with event := { h.event with seq := seq + 1 } } :: rest', seq', ?_, ?_⟩
      · simp [receiveAll, receive, hadmits, hreceive]
      · intro other hother
        rcases List.mem_cons.mp hother with rfl | hother
        · exact hfirst.push _
        · exact hheard other hother
    · -- the event is not for this level, and so it opens no span of the scope
      obtain ⟨rest', seq', hreceive, hheard⟩ := ih seq hrest
      refine ⟨ring :: rest', seq', by simp [receiveAll, receive, hadmits, hreceive], ?_⟩
      intro other hother
      rcases List.mem_cons.mp hother with rfl | hother
      · rw [opening?_eq_none hscope hadmits]
        simpa using hfirst
      · exact hheard other hother

/-- A stream in front of the rings writes the event as well. -/
theorem Recorder.receiveAll_stores (hscope : q.level.admits scope = true) (h : Held) {w : Writer}
    (hw : w.Heard q scope names) (seq : UInt64) {rings : List (Ring Held)}
    (hrings : ∀ ring ∈ rings, ring.Heard q scope names) :
    ∃ (rings' : List (Ring Held)) (w' : Writer) (seq' : UInt64),
      receiveAll h (.stream q.level q.format :: rings.map (.ring q.level)) w seq =
          (.stream q.level q.format :: rings'.map (.ring q.level), w', seq') ∧
        w'.Heard q scope (names ++ (h.event.opening? scope).toList) ∧
        ∀ ring ∈ rings', ring.Heard q scope (names ++ (h.event.opening? scope).toList) := by
  by_cases hadmits : q.level.admits h.event.scope = true
  · obtain ⟨heard, hwritten, rfl⟩ := hw
    let numbered : Held := { h with event := { h.event with seq := seq + 1 } }
    let w' : Writer := { w with written := w.written.push (numbered.event.render q.format) }
    obtain ⟨rings', seq', hreceive, hrings'⟩ := receiveAll_rings hscope h w' (seq + 1) hrings
    refine ⟨rings', w', seq', ?_, ⟨heard ++ [numbered], ?_, openings_concat scope heard _⟩, hrings'⟩
    · rw [receiveAll, receive, if_pos hadmits]
      simp only [hreceive, w', numbered]
    · simp [w', hwritten]
  · obtain ⟨rings', seq', hreceive, hrings'⟩ := receiveAll_rings hscope h w seq hrings
    refine ⟨rings', w, seq', ?_, ?_, hrings'⟩
    · rw [receiveAll, receive, if_neg hadmits]
      simp only [hreceive]
    · rw [opening?_eq_none hscope hadmits]
      simpa using hw

namespace Recorder.Follows

/-! ## One operation -/

/-- A recorded event adds the span that it opens, if it opens one of the scope. -/
theorem record (hscope : q.level.admits scope = true) (hr : r.Follows q scope names) (h : Held) :
    (r.record h).Follows q scope (names ++ (h.event.opening? scope).toList) := by
  obtain ⟨hlevel, ⟨rings, hstores, hrings⟩, hwritten⟩ := hr
  by_cases hstreams : q.streams = true
  · rw [if_pos hstreams, List.singleton_append] at hstores
    obtain ⟨rings', w', seq', hreceive, hw', hrings'⟩ :=
      receiveAll_stores hscope h (hwritten hstreams) r.lastSeq hrings
    simp only [Recorder.record, hstores, hreceive]
    exact ⟨hlevel, ⟨rings', by rw [if_pos hstreams]; rfl, hrings'⟩, fun _ => hw'⟩
  · rw [if_neg hstreams, List.nil_append] at hstores
    obtain ⟨rings', seq', hreceive, hrings'⟩ := receiveAll_rings hscope h r.writer r.lastSeq hrings
    simp only [Recorder.record, hstores, hreceive]
    exact ⟨hlevel, ⟨rings', by rw [if_neg hstreams]; rfl, hrings'⟩, fun h => absurd h hstreams⟩

/-- An event that opens no span adds nothing. -/
theorem record_of_kind (hscope : q.level.admits scope = true) (hr : r.Follows q scope names)
    {h : Held} (hkind : h.event.kind ≠ .opens) : (r.record h).Follows q scope names := by
  simpa [Event.opening?, hkind] using hr.record hscope h

/-- Opening a span of the scope adds it. A span of a scope that the level does not admit is not
recorded, and it is none of the scope. -/
theorem openSpan (hscope : q.level.admits scope = true) (hr : r.Follows q scope names)
    (other : Scope) (name : String) (parent : UInt64) :
    (r.openSpan other name parent).2.Follows q scope
      (names ++ ((Act.opens other name).opening? scope).toList) := by
  unfold Recorder.openSpan
  split
  · have hcounted : { r with lastSpan := r.lastSpan + 1 }.Follows q scope names :=
      ⟨hr.level, hr.stores, hr.written⟩
    have hrecorded := hcounted.record hscope { event := {
      time := r.now, kind := .opens, scope := other, span := r.lastSpan + 1, parent, name } }
    simpa [Recorder.emit, Event.opening?, Act.opening?] using hrecorded
  next hadmits =>
    have hother : other ≠ scope := by
      rintro rfl
      simp [Recorder.admits, hr.level, hscope, isOn_of_admits hscope] at hadmits
    simpa [Act.opening?, hother] using hr

theorem closeSpan (hscope : q.level.admits scope = true) (hr : r.Follows q scope names) (s : Span)
    (detail : String) : (r.closeSpan s detail).Follows q scope names := by
  unfold Recorder.closeSpan
  split
  · exact hr.record_of_kind hscope nofun
  · exact hr

theorem point (hscope : q.level.admits scope = true) (hr : r.Follows q scope names) (other : Scope)
    (name detail : String) (parent : UInt64) :
    (r.point other name detail parent).Follows q scope names := by
  unfold Recorder.point
  split
  · exact hr.record_of_kind hscope nofun
  · exact hr

/-- A remark reaches closing events only. -/
theorem annotate (hr : r.Follows q scope names) (s : Span) (key value : String) :
    (r.annotate s key value).2.Follows q scope names := by
  unfold Recorder.annotate
  split
  · obtain ⟨hlevel, ⟨rings, hstores, hrings⟩, hwritten⟩ := hr
    refine ⟨hlevel, ⟨rings.map (Ring.map (Held.remark s.id key value)), ?_, ?_⟩, hwritten⟩
    · rw [hstores]
      split <;> simp
    · intro ring hring
      obtain ⟨source, hsource, rfl⟩ := List.mem_map.mp hring
      obtain ⟨hcapacity, heard, hholds, hopenings⟩ := hrings source hsource
      exact ⟨hcapacity, _, hholds.map _, (openings_map_remark scope _ _ _ heard).trans hopenings⟩
  · exact hr

theorem annotateAll (hr : r.Follows q scope names) (s : Span) (extras : List (String × String)) :
    (extras.foldl (fun (s, r) (k, v) => r.annotate s k v) (s, r)).2.Follows q scope names := by
  induction extras generalizing s r with
  | nil => exact hr
  | cons x rest ih => exact ih (hr.annotate s x.1 x.2) _

/-! ## A whole log -/

/-- Playing a log adds the spans of the scope that it opens, in order. -/
theorem playUnder (hscope : q.level.admits scope = true) (hr : r.Follows q scope names)
    (caller : UInt64) (spans : List Span) (acts : List Act) :
    (Trace.playUnder caller spans acts r).Follows q scope
      (names ++ acts.filterMap (Act.opening? scope)) := by
  induction acts generalizing spans r names with
  | nil => simpa [Trace.playUnder] using hr
  | cons act rest ih =>
    cases act with
    | opens other name =>
      have hnext := ih (hr.openSpan hscope other name (enclosing caller spans))
        ((r.openSpan other name (enclosing caller spans)).1 :: spans)
      cases hopening : (Act.opens other name).opening? scope <;>
        simpa [Trace.playUnder, hopening] using hnext
    | closes detail extras =>
      -- nothing is closed where no span is open
      cases spans with
      | nil => exact ih hr []
      | cons s outer =>
        have hclosed := (hr.annotateAll s extras).closeSpan hscope
          (extras.foldl (fun (s, r) (k, v) => r.annotate s k v) (s, r)).1 detail
        exact ih hclosed outer
    | point other name detail =>
      exact ih (hr.point hscope other name detail (enclosing caller spans)) spans

/-- What the stores hold is what they show. -/
theorem showsSpans (hr : r.Follows q scope names) : r.ShowsSpans q scope names := by
  obtain ⟨-, ⟨rings, hstores, hrings⟩, hwritten⟩ := hr
  refine ⟨fun hstreams => ?_, fun kept hkept => ?_⟩
  · obtain ⟨heard, hrendered, rfl⟩ := hwritten hstreams
    refine ⟨heard.map Held.event, ?_, List.filterMap_map⟩
    rw [hrendered, List.map_map]
    rfl
  · -- the events shown are those of the first ring
    have hring : r.tracer.ring? = rings.head? := by
      rw [Tracer.ring?, hstores]
      cases rings <;> split <;> simp
    obtain ⟨ring, hfirst, rfl⟩ := Option.map_eq_some_iff.mp hkept
    rw [hring] at hfirst
    obtain ⟨hcapacity, heard, hholds, rfl⟩ := hrings ring (List.mem_of_mem_head? hfirst)
    refine ⟨heard.map Held.event, ?_, List.filterMap_map⟩
    rw [hholds.toList_eq, ← hcapacity]
    simp [List.rtake, List.map_drop]

end Recorder.Follows

namespace Recorder

/-- A tracer that was just set up has shown nothing. -/
theorem follows_of_tracer {tracer : Tracer} (hon : q.level.isOn = true) (h : q.tracer = .ok tracer)
    (lastSeq lastSpan : UInt64) (now : Int) :
    ({ tracer, lastSeq, lastSpan, now } : Recorder).Follows q scope [] := by
  have hnew : ∀ ring ∈ [(Ring.ofRequest q.ringSize : Ring Held)], ring.Heard q scope [] := by
    intro ring hring
    rw [List.mem_singleton.mp hring]
    exact ⟨rfl, [], Ring.holds_ofRequest _, rfl⟩
  have hempty : ({} : Writer).Heard q scope [] := ⟨[], rfl, rfl⟩
  simp only [Request.tracer, hon, Bool.not_true, Bool.false_eq_true, if_false] at h
  cases hstorage : q.storage with
  | stream =>
    simp only [hstorage, Except.ok.injEq] at h
    subst h
    exact ⟨rfl, ⟨[], by simp [Request.streams, hon, hstorage], nofun⟩, fun _ => hempty⟩
  | ring =>
    simp only [hstorage, Except.ok.injEq] at h
    subst h
    exact ⟨rfl, ⟨[_], by simp [Request.streams, hstorage], hnew⟩, fun _ => hempty⟩
  | both =>
    simp only [hstorage, Except.ok.injEq] at h
    subst h
    exact ⟨rfl, ⟨[_], by simp [Request.streams, hon, hstorage], hnew⟩, fun _ => hempty⟩
  | unassigned => simp [hstorage] at h

/-- A log that is played on the tracer of a request whose level admits a scope leaves a trace of the
spans of that scope that the log opens, and of no other span of the scope. -/
theorem showsSpans_play {tracer : Tracer} (hscope : q.level.admits scope = true)
    (h : q.tracer = .ok tracer) (lastSeq lastSpan : UInt64) (now : Int) (caller : UInt64)
    (acts : List Act) :
    (play caller acts { tracer, lastSeq, lastSpan, now }).ShowsSpans q scope
      (acts.filterMap (Act.opening? scope)) := by
  have hnew : ({ tracer, lastSeq, lastSpan, now } : Recorder).Follows q scope [] :=
    follows_of_tracer (isOn_of_admits hscope) h lastSeq lastSpan now
  exact (hnew.playUnder hscope caller [] acts).showsSpans

end Recorder

end CodeEmission.Trace

import CodeEmission.Proofs.Trace.Openings

/-!
# What a Log Records

The events that are recorded when a log is played depend on the level, on the caller's span, on the
clock and on the number of spans so far, but not on where events are kept. `Observer.run` gives them
in order, before a store has numbered them. Every store numbers them for itself.

* `Cursor.Valid.step`: open spans have distinct numbers, which no closed span has.
* `Recorder.Tells.record`, `Recorder.Tells.annotate`: what one operation does to the stores. A
  remark reaches no closed span.
* `Recorder.shows_play`: after a log has been played on the tracer of a request, its stores show
  exactly these events.
-/

namespace CodeEmission.Trace

/-- How a log is looked at. -/
structure Observer where
  /-- The level. -/
  level : Level
  /-- The span of the caller. -/
  caller : UInt64
  /-- The reading of the clock. -/
  now : Int

/-- A position in a log: the open spans, the innermost first, and the last number of a span. -/
structure Cursor where
  /-- The open spans. -/
  spans : List Span := []
  /-- The last number given to a span. -/
  lastSpan : UInt64

namespace Observer

/-- The span that is opened at a position. -/
def opened (o : Observer) (c : Cursor) (scope : Scope) (name : String) : Span :=
  { enabled := true, id := c.lastSpan + 1, parent := enclosing o.caller c.spans, scope, name }

/-- The event that opens a span. -/
def opening (o : Observer) (s : Span) : Event :=
  { time := o.now, kind := .opens, scope := s.scope, span := s.id, parent := s.parent
    name := s.name }

/-- The event that closes a span. -/
def closing (o : Observer) (s : Span) (detail : String) (extras : List (String × String)) : Event :=
  { time := o.now, kind := .closes, scope := s.scope, span := s.id, parent := s.parent
    name := s.name, detail
    extras := extras.foldl (fun x e => x.insert e.1 e.2) s.extras }

/-- The event of a point. -/
def marking (o : Observer) (c : Cursor) (scope : Scope) (name detail : String) : Event :=
  { time := o.now, kind := .point, scope, parent := enclosing o.caller c.spans, name, detail }

/-- What an entry of a log records, and the position after it. -/
def step (o : Observer) (c : Cursor) : Act → Option Event × Cursor
  | .opens scope name =>
    if o.level.admits scope then
      (some (o.opening (o.opened c scope name)),
        { spans := o.opened c scope name :: c.spans, lastSpan := c.lastSpan + 1 })
    else (none, { c with spans := {} :: c.spans })
  | .closes detail extras =>
    match c.spans with
    | [] => (none, c)
    | s :: outer =>
      (if s.enabled then some (o.closing s detail extras) else none, { c with spans := outer })
  | .point scope name detail =>
    (if o.level.admits scope then some (o.marking c scope name detail) else none, c)

/-- What a log records from a position on. -/
def run (o : Observer) (c : Cursor) : List Act → List Event
  | [] => []
  | act :: rest => (o.step c act).1.toList ++ o.run (o.step c act).2 rest

section Step

variable {o : Observer} {c : Cursor} {scope : Scope}

theorem step_opens (h : o.level.admits scope = true) (name : String) :
    o.step c (.opens scope name) =
      (some (o.opening (o.opened c scope name)),
        { spans := o.opened c scope name :: c.spans, lastSpan := c.lastSpan + 1 }) := by
  rw [step, if_pos h]

theorem step_point (h : o.level.admits scope = true) (name detail : String) :
    o.step c (.point scope name detail) = (some (o.marking c scope name detail), c) := by
  rw [step, if_pos h]

theorem step_closes_nil (h : c.spans = []) (detail : String) (extras : List (String × String)) :
    o.step c (.closes detail extras) = (none, c) := by
  rw [step, h]

theorem step_closes_cons {s : Span} {outer : List Span} (h : c.spans = s :: outer)
    (detail : String) (extras : List (String × String)) :
    o.step c (.closes detail extras) =
      (if s.enabled then some (o.closing s detail extras) else none,
        { c with spans := outer }) := by
  rw [step, h]

end Step

end Observer

/-! ## Open and closed spans -/

/-- The spans of a position are told apart by their numbers, and closed spans have other numbers. -/
structure Cursor.Valid (level : Level) (events : List Event) (c : Cursor) : Prop where
  /-- Only spans that the level admits are recorded. -/
  admitted : ∀ s ∈ c.spans, s.enabled = true → level.admits s.scope = true
  /-- The number of a span was given out. -/
  bound : ∀ s ∈ c.spans, s.enabled = true → 0 < s.id ∧ s.id ≤ c.lastSpan
  /-- No two open spans have one number. -/
  distinct : c.spans.Pairwise fun s t => s.enabled = true → t.enabled = true → t.id ≠ s.id
  /-- A closed span had another number. -/
  closed : ∀ e ∈ events, e.kind = .closes → e.span ≤ c.lastSpan ∧
    ∀ s ∈ c.spans, s.enabled = true → e.span ≠ s.id

/-- Counters that have room do not wrap. -/
theorem toNat_add_one_of_room {a : UInt64} (h : a.toNat + 1 < UInt64.size) :
    (a + 1).toNat = a.toNat + 1 := by
  rw [UInt64.toNat_add]
  exact Nat.mod_eq_of_lt h

theorem lt_add_one_of_room {a : UInt64} (h : a.toNat + 1 < UInt64.size) : a < a + 1 := by
  rw [UInt64.lt_iff_toNat_lt, toNat_add_one_of_room h]
  exact Nat.lt_succ_self _

/-- Each entry of a log uses one number at most. -/
theorem Observer.lastSpan_step_le (o : Observer) (c : Cursor) (act : Act) :
    (o.step c act).2.lastSpan.toNat ≤ c.lastSpan.toNat + 1 := by
  cases act with
  | opens scope name =>
    rw [step]
    split
    · exact Nat.le_trans (Nat.le_of_eq (UInt64.toNat_add _ _)) (Nat.mod_le _ _)
    · exact Nat.le_succ _
  | closes detail extras =>
    rw [step]
    split <;> exact Nat.le_succ _
  | point scope name detail => exact Nat.le_succ _

namespace Cursor.Valid

variable {level : Level} {events : List Event} {c : Cursor}

/-- At the start no span is open. -/
theorem start (level : Level) (lastSpan : UInt64) : { lastSpan : Cursor }.Valid level [] :=
  ⟨nofun, nofun, .nil, nofun⟩

/-- The innermost span has a number of its own. -/
theorem distinct_of_cons (hc : c.Valid level events) {s : Span} {outer : List Span}
    (hspans : c.spans = s :: outer) (henabled : s.enabled = true) :
    ∀ t ∈ outer, t.enabled = true → t.id ≠ s.id := by
  have hdistinct := hc.distinct
  rw [hspans] at hdistinct
  exact fun t ht => (List.pairwise_cons.mp hdistinct).1 t ht henabled

/-- An event that closes nothing changes nothing. -/
theorem concat (hc : c.Valid level events) {e : Event} (he : e.kind ≠ .closes) :
    c.Valid level (events ++ [e]) := by
  refine ⟨hc.admitted, hc.bound, hc.distinct, fun x hx hkind => ?_⟩
  rcases List.mem_append.mp hx with hx | hx
  · exact hc.closed x hx hkind
  · rw [List.mem_singleton.mp hx] at hkind
    exact absurd hkind he

/-- A new span has a number that no other span has. -/
theorem opened (hc : c.Valid level events) (hroom : c.lastSpan.toNat + 1 < UInt64.size) {s : Span}
    (hs : s.id = c.lastSpan + 1) (hscope : level.admits s.scope = true) :
    { spans := s :: c.spans, lastSpan := c.lastSpan + 1 : Cursor }.Valid level events := by
  have hnew : ∀ {id : UInt64}, id ≤ c.lastSpan → id < s.id := by
    intro id hid
    rw [hs]
    exact UInt64.lt_of_le_of_lt hid (lt_add_one_of_room hroom)
  refine ⟨List.forall_mem_cons.mpr ⟨fun _ => hscope, hc.admitted⟩,
    List.forall_mem_cons.mpr ⟨fun _ => ?_, fun t ht henabled => ?_⟩,
    List.pairwise_cons.mpr ⟨fun t ht _ henabled => ?_, hc.distinct⟩, fun e he hkind => ?_⟩
  · exact ⟨UInt64.lt_of_le_of_lt UInt64.zero_le (hnew (UInt64.le_refl _)), UInt64.le_of_eq hs⟩
  · obtain ⟨hpos, hle⟩ := hc.bound t ht henabled
    exact ⟨hpos, UInt64.le_of_lt (hs ▸ hnew hle)⟩
  · exact UInt64.ne_of_lt (hnew (hc.bound t ht henabled).2)
  · obtain ⟨hle, hother⟩ := hc.closed e he hkind
    exact ⟨UInt64.le_of_lt (hs ▸ hnew hle),
      List.forall_mem_cons.mpr ⟨fun _ => UInt64.ne_of_lt (hnew hle), hother⟩⟩

/-- A disabled span has no number. -/
theorem opened_disabled (hc : c.Valid level events) :
    { c with spans := {} :: c.spans }.Valid level events := by
  refine ⟨List.forall_mem_cons.mpr ⟨nofun, hc.admitted⟩, List.forall_mem_cons.mpr ⟨nofun, hc.bound⟩,
    List.pairwise_cons.mpr ⟨fun _ _ => nofun, hc.distinct⟩, fun e he hkind => ?_⟩
  obtain ⟨hle, hother⟩ := hc.closed e he hkind
  exact ⟨hle, List.forall_mem_cons.mpr ⟨nofun, hother⟩⟩

/-- The number of the span that is closed is no longer that of an open span. -/
theorem closed_span {s : Span} {outer : List Span} (hspans : c.spans = s :: outer)
    (hc : c.Valid level events) {closing : List Event}
    (hclosing : ∀ e ∈ closing, s.enabled = true ∧ e.span = s.id) :
    { c with spans := outer }.Valid level (events ++ closing) := by
  have hother := hc.distinct_of_cons hspans
  obtain ⟨hadmitted, hbound, hdistinct, hclosed⟩ := hc
  rw [hspans] at hadmitted hbound hdistinct hclosed
  refine ⟨(List.forall_mem_cons.mp hadmitted).2, (List.forall_mem_cons.mp hbound).2,
    hdistinct.of_cons, fun e he hkind => ?_⟩
  rcases List.mem_append.mp he with he | he
  · obtain ⟨hle, hopen⟩ := hclosed e he hkind
    exact ⟨hle, (List.forall_mem_cons.mp hopen).2⟩
  · obtain ⟨henabled, hspan⟩ := hclosing e he
    rw [hspan]
    exact ⟨((List.forall_mem_cons.mp hbound).1 henabled).2,
      fun t ht htenabled => (hother henabled t ht htenabled).symm⟩

/-- The numbers stay apart as long as the counter has room. -/
theorem step {o : Observer} (hc : c.Valid o.level events)
    (hroom : c.lastSpan.toNat + 1 < UInt64.size) (act : Act) :
    (o.step c act).2.Valid o.level (events ++ (o.step c act).1.toList) := by
  cases act with
  | opens scope name =>
    rw [Observer.step]
    split
    next hadmit => exact (hc.opened hroom rfl hadmit).concat (by simp [Observer.opening])
    next =>
      rw [Option.toList_none, List.append_nil]
      exact hc.opened_disabled
  | closes detail extras =>
    rw [Observer.step]
    split
    next => simpa using hc
    next s outer hspans =>
      refine closed_span hspans hc fun e he => ?_
      split at he
      next henabled =>
        rw [List.mem_singleton.mp he]
        exact ⟨henabled, rfl⟩
      next => cases he
  | point scope name detail =>
    rw [Observer.step]
    split
    next => exact hc.concat (by simp [Observer.marking])
    next =>
      rw [Option.toList_none, List.append_nil]
      exact hc

end Cursor.Valid

/-! ## Stores -/

namespace Request

/-- Whether a ring is needed. -/
def keeps (q : Request) : Bool :=
  q.level.isOn && (q.storage = .ring || q.storage = .both)

/-- How many stores there are. -/
def storeCount (q : Request) : Nat :=
  q.streams.toNat + q.keeps.toNat

/-- The stores, with the given ring. -/
def storesWith (q : Request) (ring : Ring Held) : List Store :=
  (if q.streams then [.stream q.level q.format] else []) ++
    if q.keeps then [.ring q.level ring] else []

end Request

/-- The events that the store in the given place has numbered, when `count` stores number events in
turn. -/
def numbered (lastSeq : UInt64) (count place : Nat) (events : List Event) : List Event :=
  events.mapIdx fun k e => { e with seq := lastSeq + UInt64.ofNat (count * k + place + 1) }

theorem numbered_concat (lastSeq : UInt64) (count place : Nat) (events : List Event) (e : Event) :
    numbered lastSeq count place (events ++ [e]) = numbered lastSeq count place events ++
      [{ e with seq := lastSeq + UInt64.ofNat (count * events.length + place + 1) }] := by
  simp [numbered, List.mapIdx_append]

/-- What the stores of a recorder that was made for a request show: the stream, which is the first
store, has written all events, and the ring, which is the last, has kept as many as it has room
for. -/
def Recorder.Shows (q : Request) (lastSeq : UInt64) (events : List Event) (r : Recorder) : Prop :=
  r.writer.written.toList =
      (if q.streams then (numbered lastSeq q.storeCount 0 events).map (Event.render q.format)
        else []) ∧
    r.tracer.snapshot? =
      if q.keeps then some ((numbered lastSeq q.storeCount (q.storeCount - 1) events).rtake
        (Ring.ofRequest q.ringSize : Ring Held).capacity)
      else none

/-- The state of a recorder of a request after some events. -/
structure Recorder.Tells (q : Request) (now : Int) (lastSeq lastSpan : UInt64)
    (events : List Event) (r : Recorder) : Prop where
  level : r.tracer.level = q.level
  now : r.now = now
  lastSpan : r.lastSpan = lastSpan
  seq : r.lastSeq = lastSeq + UInt64.ofNat (q.storeCount * events.length)
  written : r.writer.written.toList =
    if q.streams then (numbered lastSeq q.storeCount 0 events).map (Event.render q.format) else []
  stores : ∃ ring heard, r.tracer.stores = q.storesWith ring ∧
    ring.capacity = (Ring.ofRequest q.ringSize : Ring Held).capacity ∧ ring.Holds heard ∧
    heard.map Held.event = numbered lastSeq q.storeCount (q.storeCount - 1) events ∧
    ∀ h ∈ heard, h.bySpan = true → h.event.kind = .closes

namespace Recorder

variable {q : Request} {o : Observer} {now : Int} {lastSeq lastSpan : UInt64} {events : List Event}
  {r : Recorder}

/-- Each store takes an event with the next number. -/
theorem receiveAll_storesWith {h : Held} (hadmits : q.level.admits h.event.scope = true)
    (hstore : 0 < q.storeCount) (ring : Ring Held) (w : Writer) (seq : UInt64) :
    receiveAll h (q.storesWith ring) w seq =
      (q.storesWith (ring.push
          { h with event := { h.event with seq := seq + UInt64.ofNat q.storeCount } }),
        { w with written := if q.streams then
            w.written.push ({ h.event with seq := seq + 1 }.render q.format) else w.written },
        seq + UInt64.ofNat q.storeCount) := by
  unfold Request.storeCount at hstore ⊢
  cases hstreams : q.streams <;> cases hkeeps : q.keeps <;>
    simp_all [Request.storesWith, receiveAll, receive, UInt64.add_assoc]

/-- What the stores hold is what they show. -/
theorem Tells.shows (hr : r.Tells q now lastSeq lastSpan events) : r.Shows q lastSeq events := by
  obtain ⟨ring, heard, hstores, hcapacity, hholds, hheard, -⟩ := hr.stores
  refine ⟨hr.written, ?_⟩
  have hring : r.tracer.ring? = if q.keeps then some ring else none := by
    rw [Tracer.ring?, hstores, Request.storesWith]
    cases q.streams <;> cases q.keeps <;> rfl
  rw [Tracer.snapshot?, hring]
  split
  · rw [Option.map_some, hholds.toList_eq, ← hheard, ← hcapacity]
    simp [List.rtake, List.map_drop]
  · rfl

/-! ## One operation -/

/-- An event that the level admits is the next one in all stores. -/
theorem Tells.record (hr : r.Tells q now lastSeq lastSpan events) (hstore : 0 < q.storeCount)
    {h : Held} (hadmits : q.level.admits h.event.scope = true)
    (hspan : h.bySpan = true → h.event.kind = .closes) :
    (r.record h).Tells q now lastSeq lastSpan (events ++ [h.event]) := by
  obtain ⟨ring, heard, hstores, hcapacity, hholds, hheard, hkinds⟩ := hr.stores
  have hreceive := receiveAll_storesWith hadmits hstore ring r.writer r.lastSeq
  rw [← hstores] at hreceive
  -- the ring comes after the stream, so it gives the event the last of the new numbers
  have hlast : q.storeCount * events.length + (q.storeCount - 1) + 1 =
      q.storeCount * events.length + q.storeCount := by omega
  unfold Recorder.record
  rw [hreceive]
  refine ⟨hr.level, hr.now, hr.lastSpan, ?_, ?_, ?_⟩
  · rw [hr.seq, List.length_append, List.length_singleton, Nat.mul_succ, UInt64.ofNat_add,
      UInt64.add_assoc]
  · have hwritten := hr.written
    cases hstreams : q.streams with
    | false =>
      simp only [hstreams, Bool.false_eq_true, if_false] at hwritten ⊢
      exact hwritten
    | true =>
      simp only [hstreams, if_true] at hwritten ⊢
      rw [Array.toList_push, hwritten, numbered_concat, List.map_append, List.map_singleton, hr.seq,
        Nat.add_zero, UInt64.ofNat_add, UInt64.add_assoc]
      rfl
  · refine ⟨_, _, rfl, by rw [Ring.capacity_push]; exact hcapacity, hholds.push _, ?_, ?_⟩
    · rw [List.map_append, hheard, numbered_concat, hlast, hr.seq, UInt64.ofNat_add,
        UInt64.add_assoc]
      rfl
    · intro x hx
      rcases List.mem_append.mp hx with hx | hx
      · exact hkinds x hx
      · rw [List.mem_singleton.mp hx]
        exact hspan

/-- A remark on a span that was not closed yet reaches nothing that is held. -/
theorem Tells.annotate (hr : r.Tells q now lastSeq lastSpan events) {s : Span}
    (hs : ∀ e ∈ events, e.kind = .closes → e.span ≠ s.id) (key value : String) :
    (r.annotate s key value).2.Tells q now lastSeq lastSpan events := by
  unfold Recorder.annotate
  split
  next =>
    obtain ⟨ring, heard, hstores, hcapacity, hholds, hheard, hkinds⟩ := hr.stores
    -- only an event that closed a span takes remarks on it, and this span was not closed
    have hsame : heard.map (Held.remark s.id key value) = heard := by
      refine (List.map_congr_left fun h hh => ?_).trans (List.map_id _)
      have hmem : h.event ∈ numbered lastSeq q.storeCount (q.storeCount - 1) events := by
        rw [← hheard]
        exact List.mem_map_of_mem hh
      obtain ⟨k, hk, hevent⟩ := List.mem_mapIdx.mp hmem
      have hother : h.bySpan = true → h.event.span ≠ s.id := by
        intro hspan
        have hkind := hkinds h hh hspan
        rw [← hevent] at hkind ⊢
        exact hs events[k] (List.getElem_mem hk) hkind
      unfold Held.remark
      rw [if_neg]
      · rfl
      · simp only [Bool.and_eq_true, decide_eq_true_eq]
        rintro ⟨⟨hspan, hid⟩, -⟩
        exact hother hspan hid
    refine ⟨hr.level, hr.now, hr.lastSpan, hr.seq, hr.written,
      ring.map (Held.remark s.id key value), heard, ?_, hcapacity, ?_, hheard, hkinds⟩
    · rw [hstores, Request.storesWith, Request.storesWith]
      cases q.streams <;> cases q.keeps <;> rfl
    · have hmapped := hholds.map (Held.remark s.id key value)
      rw [hsame] at hmapped
      exact hmapped
  next => exact hr

/-- Remarks on an open span become its own. -/
theorem Tells.annotateAll (hr : r.Tells q now lastSeq lastSpan events) {s : Span}
    (henabled : s.enabled = true) (hs : ∀ e ∈ events, e.kind = .closes → e.span ≠ s.id)
    (extras : List (String × String)) :
    ∃ r', r'.Tells q now lastSeq lastSpan events ∧
      extras.foldl (fun (s, r) (k, v) => r.annotate s k v) (s, r) =
        ({ s with extras := extras.foldl (fun x e => x.insert e.1 e.2) s.extras }, r') := by
  induction extras generalizing s r with
  | nil => exact ⟨r, hr, rfl⟩
  | cons x rest ih =>
    have hfirst : (r.annotate s x.1 x.2).1 = { s with extras := s.extras.insert x.1 x.2 } := by
      rw [Recorder.annotate, if_pos henabled]
    obtain ⟨r', hr', hrest⟩ := ih (hr.annotate hs x.1 x.2) (s := (r.annotate s x.1 x.2).1)
      (by rw [hfirst]; exact henabled) (by rw [hfirst]; exact hs)
    refine ⟨r', hr', ?_⟩
    rw [List.foldl_cons, List.foldl_cons]
    refine hrest.trans ?_
    rw [hfirst]

/-- Remarks on a disabled span are lost. -/
theorem annotateAll_disabled {s : Span} (hdisabled : s.enabled = false)
    (extras : List (String × String)) :
    extras.foldl (fun (s, r) (k, v) => r.annotate s k v) (s, r) = (s, r) := by
  induction extras with
  | nil => rfl
  | cons x rest ih => simpa [Recorder.annotate, hdisabled] using ih

/-! ## A whole log -/

/-- An entry of a log is played: the recorder tells what the observer sees. -/
theorem Tells.step {c : Cursor} (hr : r.Tells q o.now lastSeq c.lastSpan events)
    (hlevel : o.level = q.level) (hstore : q.level.isOn = true → 0 < q.storeCount)
    (hc : c.Valid q.level events) (act : Act) (rest : List Act) :
    ∃ r', playUnder o.caller c.spans (act :: rest) r =
        playUnder o.caller (o.step c act).2.spans rest r' ∧
      r'.Tells q o.now lastSeq (o.step c act).2.lastSpan (events ++ (o.step c act).1.toList) := by
  -- a level that admits a scope is on, so the recorder admits what the level admits
  have hadmits : ∀ scope, r.admits scope = q.level.admits scope := by
    intro scope
    rw [Recorder.admits, hr.level]
    cases hadmits : q.level.admits scope with
    | false => rw [Bool.and_false]
    | true => rw [isOn_of_admits hadmits, Bool.and_true]
  cases act with
  | opens scope name =>
    rw [Observer.step, hlevel]
    split
    next hadmit =>
      have hcounted : { r with lastSpan := c.lastSpan + 1 }.Tells q o.now lastSeq (c.lastSpan + 1)
          events := ⟨hr.level, hr.now, rfl, hr.seq, hr.written, hr.stores⟩
      refine ⟨_, ?_, hcounted.record (hstore (isOn_of_admits hadmit))
        (h := { event := o.opening (o.opened c scope name) }) hadmit
        fun hspan => absurd hspan Bool.false_ne_true⟩
      simp [playUnder, openSpan, hadmits, hadmit, emit, Observer.opening, Observer.opened,
        hr.lastSpan, hr.now]
    next hadmit =>
      refine ⟨r, ?_, by simpa using hr⟩
      simp [playUnder, openSpan, hadmits, hadmit]
  | closes detail extras =>
    cases hspans : c.spans with
    | nil =>
      refine ⟨r, ?_, ?_⟩
      · simp [playUnder, Observer.step, hspans]
      · simpa [Observer.step, hspans] using hr
    | cons s outer =>
      have hmem : s ∈ c.spans := by simp [hspans]
      simp only [Observer.step, hspans]
      cases henabled : s.enabled with
      | false =>
        refine ⟨r, ?_, by simpa using hr⟩
        rw [playUnder, annotateAll_disabled henabled]
        simp [closeSpan, henabled]
      | true =>
        -- an open span has a number that no closed span had
        have hother : ∀ e ∈ events, e.kind = .closes → e.span ≠ s.id :=
          fun e he hkind => (hc.closed e he hkind).2 s hmem henabled
        obtain ⟨r', hr', hannotated⟩ := hr.annotateAll henabled hother extras
        have hadmit := hc.admitted s hmem henabled
        refine ⟨_, ?_, hr'.record (hstore (isOn_of_admits hadmit))
          (h := { event := o.closing s detail extras, bySpan := true }) hadmit fun _ => rfl⟩
        rw [playUnder, hannotated]
        simp [closeSpan, henabled, Observer.closing, hr'.now]
  | point scope name detail =>
    rw [Observer.step, hlevel]
    split
    next hadmit =>
      refine ⟨_, ?_, hr.record (hstore (isOn_of_admits hadmit))
        (h := { event := o.marking c scope name detail }) hadmit
        fun hspan => absurd hspan Bool.false_ne_true⟩
      simp [playUnder, Recorder.point, hadmits, hadmit, emit, Observer.marking, hr.now]
    next hadmit =>
      refine ⟨r, ?_, by simpa using hr⟩
      simp [playUnder, Recorder.point, hadmits, hadmit]

/-- A log is played: the recorder tells what the observer sees. -/
theorem Tells.playUnder {c : Cursor} (hr : r.Tells q o.now lastSeq c.lastSpan events)
    (hlevel : o.level = q.level) (hstore : q.level.isOn = true → 0 < q.storeCount)
    (hc : c.Valid o.level events) {acts : List Act}
    (hroom : c.lastSpan.toNat + acts.length < UInt64.size) :
    ∃ lastSpan, (Trace.playUnder o.caller c.spans acts r).Tells q o.now lastSeq lastSpan
      (events ++ o.run c acts) := by
  induction acts generalizing c events r with
  | nil => exact ⟨c.lastSpan, by simpa [Trace.playUnder, Observer.run] using hr⟩
  | cons act rest ih =>
    rw [List.length_cons] at hroom
    obtain ⟨r', hplay, hr'⟩ := hr.step hlevel hstore (hlevel ▸ hc) act rest
    have hnext := o.lastSpan_step_le c act
    have hrest := ih hr' (hc.step (by omega) act) (by omega)
    rw [hplay, Observer.run, ← List.append_assoc]
    exact hrest

/-- There is a store when tracing is on. -/
theorem storeCount_pos {tracer : Tracer} (h : q.tracer = .ok tracer) (hon : q.level.isOn = true) :
    0 < q.storeCount := by
  unfold Request.tracer at h
  cases hstorage : q.storage <;> simp_all [Request.storeCount, Request.streams, Request.keeps]

/-- A tracer that was just set up tells of nothing. -/
theorem tells_of_tracer {tracer : Tracer} (h : q.tracer = .ok tracer) (lastSeq lastSpan : UInt64)
    (now : Int) :
    { tracer, lastSeq, lastSpan, now : Recorder }.Tells q now lastSeq lastSpan [] := by
  have hstores : tracer.level = q.level ∧
      tracer.stores = q.storesWith (Ring.ofRequest q.ringSize) := by
    unfold Request.tracer at h
    cases hon : q.level.isOn with
    | false =>
      have hoff : q.level = .off := by simpa [Level.isOn] using hon
      simp only [hon, Bool.not_false, if_true, Except.ok.injEq] at h
      rw [← h]
      simp [hoff, Request.storesWith, Request.streams, Request.keeps, Level.isOn]
    | true =>
      cases hstorage : q.storage <;> simp [hon, hstorage] at h <;> rw [← h] <;>
        simp [Request.storesWith, Request.streams, Request.keeps, hon, hstorage]
  refine ⟨hstores.1, rfl, rfl, by simp, by cases q.streams <;> rfl, _, [], hstores.2, rfl,
    Ring.holds_ofRequest _, rfl, List.forall_mem_nil _⟩

/-- A log that is played on the tracer of a request leaves exactly the events that an observer of
its level sees, as long as the counter of spans has room. -/
theorem shows_play {tracer : Tracer} (h : q.tracer = .ok tracer) (hlevel : o.level = q.level)
    (lastSeq lastSpan : UInt64) {acts : List Act}
    (hroom : lastSpan.toNat + acts.length < UInt64.size) :
    (play o.caller acts { tracer, lastSeq, lastSpan, now := o.now }).Shows q lastSeq
      (o.run { lastSpan } acts) := by
  have hnew := tells_of_tracer h lastSeq lastSpan o.now
  obtain ⟨_, htells⟩ := hnew.playUnder (c := { lastSpan }) hlevel (storeCount_pos h) (.start _ _)
    hroom
  exact htells.shows

end Recorder

end CodeEmission.Trace

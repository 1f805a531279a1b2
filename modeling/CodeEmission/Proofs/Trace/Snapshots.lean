import CodeEmission.Proofs.Trace.Projection
import Mathlib.Algebra.Group.Nat.Defs

/-!
# What a Ring Has Kept

A tracer with one ring receives events one after another. This module says what its snapshot shows
after any number of them.

* `Recorder.Remembers`: the state of such a recorder, given all events that its level has admitted.
* `Remembers.record`: one event is remembered or changes nothing.
* `snapshot_shows_newest`: a snapshot shows the newest of the admitted events, numbered in order.
-/

namespace CodeEmission.Trace

/-- An event without its number. -/
def Event.unnumbered (e : Event) : Event :=
  { e with seq := 0 }

/-- The events of those scopes that a level admits. -/
def Level.admitted (level : Level) (events : List Event) : List Event :=
  events.filter fun e => level.admits e.scope

theorem map_unnumbered_numbered (lastSeq : UInt64) (count place : Nat) (events : List Event) :
    (numbered lastSeq count place events).map Event.unnumbered = events.map Event.unnumbered := by
  refine List.ext_getElem (by simp [numbered]) fun k _ _ => ?_
  simp [numbered, Event.unnumbered]

/-- A recorder with one ring has received events, of which its level admitted the given ones. -/
structure Recorder.Remembers (level : Level) (capacity : Nat) (lastSeq : UInt64)
    (admitted : List Event) (r : Recorder) : Prop where
  /-- The ring was given the admitted events, each with a number of its own. -/
  stores : ∃ ring heard, r.tracer.stores = [.ring level ring] ∧ ring.capacity = capacity ∧
    ring.Holds heard ∧ heard.map Held.event = numbered lastSeq 1 0 admitted
  /-- No other event has used a number. -/
  seq : r.lastSeq = lastSeq + UInt64.ofNat admitted.length

namespace Recorder

variable {level : Level} {capacity : Nat} {lastSeq : UInt64} {admitted : List Event} {r : Recorder}
  {h : Held}

/-- A ring takes an event with the next number. -/
theorem record_of_admits {ring : Ring Held} (hstores : r.tracer.stores = [.ring level ring])
    (hadmits : level.admits h.event.scope = true) :
    r.record h = { r with
      tracer := { r.tracer with stores :=
        [.ring level (ring.push { h with event := { h.event with seq := r.lastSeq + 1 } })] }
      lastSeq := r.lastSeq + 1 } := by
  simp [record, hstores, receiveAll, receive, hadmits]

/-- An event that the level does not admit changes nothing. -/
theorem record_of_not_admits {ring : Ring Held} (hstores : r.tracer.stores = [.ring level ring])
    (hadmits : level.admits h.event.scope = false) : r.record h = r := by
  obtain ⟨⟨tracerLevel, stores⟩, writer, lastSeq, lastSpan, now⟩ := r
  subst hstores
  simp [record, receiveAll, receive, hadmits]

namespace Remembers

theorem start {requested : Int64} (hr : r.tracer = .ofRing level requested) :
    r.Remembers level (Ring.ofRequest requested : Ring Held).capacity r.lastSeq [] where
  stores := ⟨_, [], by rw [hr]; rfl, rfl, Ring.holds_ofRequest requested, rfl⟩
  seq := by simp

/-- An event is the newest one to be remembered, or changes nothing. -/
theorem record (hr : r.Remembers level capacity lastSeq admitted) (h : Held) :
    (r.record h).Remembers level capacity lastSeq (admitted ++ level.admitted [h.event]) := by
  obtain ⟨⟨ring, heard, hstores, hcapacity, hholds, hheard⟩, hseq⟩ := hr
  cases hadmits : level.admits h.event.scope with
  | false =>
    rw [record_of_not_admits hstores hadmits]
    have hnone : level.admitted [h.event] = [] := by simp [Level.admitted, hadmits]
    rw [hnone, List.append_nil]
    exact ⟨⟨ring, heard, hstores, hcapacity, hholds, hheard⟩, hseq⟩
  | true =>
    rw [record_of_admits hstores hadmits]
    have hone : level.admitted [h.event] = [h.event] := by simp [Level.admitted, hadmits]
    -- the number of the event is the one after those of all admitted events
    have hnext : r.lastSeq + 1 = lastSeq + UInt64.ofNat (admitted.length + 1) := by
      rw [hseq, UInt64.ofNat_add, UInt64.add_assoc]
      rfl
    rw [hone]
    refine ⟨⟨_, _, rfl, ?_, hholds.push _, ?_⟩, ?_⟩
    · rw [Ring.capacity_push, hcapacity]
    · rw [List.map_append, hheard, numbered_concat, hnext]
      simp
    · simpa using hnext

/-- All events of a run are remembered that the level admits. -/
theorem foldl_record (hr : r.Remembers level capacity lastSeq admitted) (emitted : List Held) :
    (emitted.foldl Recorder.record r).Remembers level capacity lastSeq
      (admitted ++ level.admitted (emitted.map Held.event)) := by
  induction emitted generalizing r admitted with
  | nil => simpa [Level.admitted] using hr
  | cons h rest ih =>
    have hrest := ih (hr.record h)
    rw [List.append_assoc] at hrest
    rw [List.foldl_cons, List.map_cons, ← List.singleton_append, Level.admitted,
      List.filter_append]
    exact hrest

theorem snapshot?_eq (hr : r.Remembers level capacity lastSeq admitted) :
    r.tracer.snapshot? = some ((numbered lastSeq 1 0 admitted).rtake capacity) := by
  obtain ⟨ring, heard, hstores, hcapacity, hholds, hheard⟩ := hr.stores
  have hring : r.tracer.ring? = some ring := by
    rw [Tracer.ring?, hstores]
    rfl
  rw [Tracer.snapshot?, hring, Option.map_some, hholds.toList_eq, ← hheard, hcapacity]
  simp [List.rtake, List.map_drop]

end Remembers

/-- A tracer with one ring, made for any requested number of entries and any level, has received any
events. As long as the counter has room for them, a snapshot shows the newest of those events that
the level admits, as many as the ring holds or as there are, the oldest first, as they were but for
their numbers, and the numbers increase. An event that the level does not admit would change neither
the ring nor the counter. -/
theorem snapshot_shows_newest (level : Level) (requested : Int64) (emitted : List Held)
    {r : Recorder} (hr : r.tracer = .ofRing level requested)
    (hroom : r.lastSeq.toNat + emitted.length < 2 ^ 64) :
    (∃ shown, (emitted.foldl Recorder.record r).tracer.snapshot? = some shown ∧
      shown.map Event.unnumbered =
        ((level.admitted (emitted.map Held.event)).rtake
          (if requested ≤ 0 then 4096 else requested.toInt.toNat)).map Event.unnumbered ∧
      shown.length = min (if requested ≤ 0 then 4096 else requested.toInt.toNat)
        (level.admitted (emitted.map Held.event)).length ∧
      shown.Pairwise fun a b => a.seq < b.seq) ∧
    ∀ h : Held, level.admits h.event.scope = false →
      (emitted.foldl Recorder.record r).record h = emitted.foldl Recorder.record r := by
  have hafter := (Remembers.start hr).foldl_record emitted
  rw [List.nil_append] at hafter
  have hcapacity : (Ring.ofRequest requested : Ring Held).capacity =
      if requested ≤ 0 then 4096 else requested.toInt.toNat := rfl
  rw [hcapacity] at hafter
  refine ⟨⟨_, hafter.snapshot?_eq, ?_, ?_, ?_⟩, fun h hadmits => ?_⟩
  · rw [List.rtake, List.rtake, List.map_drop, List.map_drop, map_unnumbered_numbered]
    simp [numbered]
  · simp only [List.rtake, List.length_drop, numbered, List.length_mapIdx]
    omega
  · have hadmitted : (level.admitted (emitted.map Held.event)).length ≤ emitted.length := by
      have hfilter := List.length_filter_le (fun e => level.admits e.scope) (emitted.map Held.event)
      rwa [List.length_map] at hfilter
    have hsorted : (numbered r.lastSeq 1 0 (level.admitted (emitted.map Held.event))).Pairwise
        fun a b => a.seq < b.seq :=
      numbered_sorted Nat.one_pos (by simp only [UInt64.size]; omega)
    exact hsorted.sublist (List.drop_sublist _ _)
  · obtain ⟨ring, -, hstores, -⟩ := hafter.stores
    exact record_of_not_admits hstores hadmits

/-- A point on its way to the stores. -/
def marked (scope : Scope) (name : String) : Held :=
  { event := { kind := .point, scope, name } }

/-- Points of three scopes; a stage's level does not admit the second. -/
def fivePoints : List Held :=
  [marked .stage "a", marked .unit "b", marked .driver "c", marked .stage "d", marked .stage "e"]

/-- A ring for two entries, on a counter that has room for five events and no more. -/
def nearlySpent : Recorder :=
  { tracer := .ofRing .phase 2, lastSeq := 18446744073709551610 }

/-- A ring for two entries that was filled twice shows the last two of four events. -/
theorem full_ring_shows_newest :
    nearlySpent.tracer = .ofRing .phase 2 ∧
    nearlySpent.lastSeq.toNat + fivePoints.length < 2 ^ 64 ∧
    (∃ shown, (fivePoints.foldl Recorder.record nearlySpent).tracer.snapshot? = some shown ∧
      shown.map Event.unnumbered =
        [(marked .stage "d").event, (marked .stage "e").event] ∧
      shown.map Event.seq = [18446744073709551613, 18446744073709551614] ∧
      shown.Pairwise fun a b => a.seq < b.seq) ∧
    Level.phase.admits (marked .unit "f").event.scope = false ∧
    (fivePoints.foldl Recorder.record nearlySpent).record (marked .unit "f") =
      fivePoints.foldl Recorder.record nearlySpent := by
  have hroom : nearlySpent.lastSeq.toNat + fivePoints.length < 2 ^ 64 := by decide
  have hfine : Level.phase.admits (marked .unit "f").event.scope = false := by decide
  obtain ⟨⟨shown, hshown, hevents, -, hsorted⟩, hother⟩ :=
    snapshot_shows_newest .phase 2 fivePoints (r := nearlySpent) rfl hroom
  have hseqs : (fivePoints.foldl Recorder.record nearlySpent).tracer.snapshot?.map
      (List.map Event.seq) = some [18446744073709551613, 18446744073709551614] := by decide
  rw [hshown, Option.map_some, Option.some.injEq] at hseqs
  exact ⟨rfl, hroom, ⟨shown, hshown, hevents.trans (by decide), hseqs, hsorted⟩, hfine,
    hother (marked .unit "f") hfine⟩

end Recorder

end CodeEmission.Trace

import CodeEmission.Proofs.Platform.Patterns
import CodeEmission.Proofs.Platform.Resolution
import CodeEmission.Proofs.Text.ByteOrder
import Mathlib.Data.List.Induction

/-!
# Registries after Any Calls

A registry is filled by calls, some of which are refused: for a pattern that cannot be read, for a
value that is missing, or for a pattern that is registered already.

* `Registry.entries_afterCalls`: the entries are those of the successful calls, in order.
* `Registry.isBest_of_lookup`: what a look-up finds matches, is as specific as any entry that
  matches, and is the first such entry.
* `Registry.lookup_after_calls`: what follows for look-ups and listings after any calls on an empty
  registry.
* `Registry.duplicate_iff_same_platforms`: a pattern is a duplicate exactly when one that matches
  the same platforms is registered.
-/

namespace CodeEmission

/-- A call that asks to register a value under a pattern. The value may be missing. -/
structure RegisterCall (α : Type) where
  /-- The text of the pattern. -/
  text : String
  /-- The value, if there is one. -/
  value? : Option α
  deriving DecidableEq, Repr

/-- The registration that a call asks for, if its pattern can be read and it has a value. -/
def RegisterCall.registration? {α : Type} (call : RegisterCall α) : Option (Registration α) :=
  match Pattern.parse call.text, call.value? with
  | .ok pattern, some value => some { pattern, value }
  | _, _ => none

theorem RegisterCall.parse_of_registration? {α : Type} {call : RegisterCall α} {e : Registration α}
    (h : call.registration? = some e) : Pattern.parse call.text = .ok e.pattern := by
  unfold registration? at h
  split at h
  next pattern value hpattern hvalue => exact Option.some.inj h ▸ hpattern
  next => cases h

namespace Registry

variable {α : Type} {r r' : Registry α} {call : RegisterCall α} {t : Triple} {e : Registration α}

/-- Whether a call on a registry is successful. -/
def accepts (r : Registry α) (call : RegisterCall α) : Bool :=
  (r.register call.text call.value?).isOk

/-- The registry after a call. A refused call leaves it as it was. -/
def afterCall (r : Registry α) (call : RegisterCall α) : Registry α :=
  match r.register call.text call.value? with
  | .ok r' => r'
  | .error _ => r

/-- The registry after calls, one after another. -/
def afterCalls (r : Registry α) (calls : List (RegisterCall α)) : Registry α :=
  calls.foldl afterCall r

/-- The successful ones among calls that are made one after another. -/
def successes (r : Registry α) : List (RegisterCall α) → List (RegisterCall α)
  | [] => []
  | call :: rest =>
    (if r.accepts call then [call] else []) ++ (r.afterCall call).successes rest

/-! ## One call -/

/-- A call is successful when its pattern can be read, has a value and is new. The registration is
then appended. -/
theorem register_eq_ok_iff {text : String} {value? : Option α} :
    r.register text value? = .ok r' ↔ ∃ p value, Pattern.parse text = .ok p ∧
      value? = some value ∧ r.isRegistered p.canonical = false ∧
      r' = { entries := r.entries ++ [⟨p, value⟩] } := by
  constructor
  · intro h
    unfold register at h
    split at h
    next => cases h
    next p hp =>
      split at h
      next => cases h
      next value =>
        split at h
        next => cases h
        next hnew =>
          exact ⟨p, value, hp, rfl, Bool.eq_false_iff.mpr hnew, (Except.ok.inj h).symm⟩
  · rintro ⟨p, value, hp, rfl, hnew, rfl⟩
    exact register_eq_ok hp hnew

/-- A successful call adds what it asks for. -/
theorem afterCall_of_accepts (h : r.accepts call = true) :
    ∃ e, call.registration? = some e ∧ e.pattern.text = call.text ∧
      r.afterCall call = { entries := r.entries ++ [e] } := by
  unfold accepts at h
  unfold afterCall
  cases hcall : r.register call.text call.value? with
  | error cause => simp [hcall, Except.isOk, Except.toBool] at h
  | ok r' =>
    obtain ⟨p, value, hp, hvalue, -, rfl⟩ := register_eq_ok_iff.mp hcall
    exact ⟨⟨p, value⟩, by simp [RegisterCall.registration?, hp, hvalue],
      (Pattern.isRead_of_parse hp).2, rfl⟩

/-- A refused call changes nothing. -/
theorem afterCall_of_not_accepts (h : ¬ r.accepts call = true) : r.afterCall call = r := by
  unfold accepts at h
  unfold afterCall
  cases hcall : r.register call.text call.value? with
  | error cause => rfl
  | ok r' => simp [hcall, Except.isOk, Except.toBool] at h

/-! ## Look-ups -/

/-- A registration is the one to find for a platform: it matches, no other that matches is more
specific, and all earlier ones that match are less specific. -/
def IsBest (entries : List (Registration α)) (t : Triple) (e : Registration α) : Prop :=
  e.pattern.matchesTriple t = true ∧ ∃ before after, entries = before ++ e :: after ∧
    (∀ b ∈ before, b.pattern.matchesTriple t = true →
      b.pattern.specificity < e.pattern.specificity) ∧
    ∀ a ∈ after, a.pattern.matchesTriple t = true →
      a.pattern.specificity ≤ e.pattern.specificity

/-- An entry that comes last is the one to find if it matches and is more specific than the best
of the others. -/
theorem IsBest.concat {entries : List (Registration α)} {b e : Registration α}
    (hb : IsBest entries t b) (he : e.pattern.matchesTriple t = true)
    (hlt : b.pattern.specificity < e.pattern.specificity) : IsBest (entries ++ [e]) t e := by
  obtain ⟨-, before, after, rfl, hbefore, hafter⟩ := hb
  refine ⟨he, before ++ b :: after, [], rfl, fun x hx hmatches => ?_, by simp⟩
  rcases List.mem_append.mp hx with hx | hx
  · exact (hbefore x hx hmatches).trans hlt
  · rcases List.mem_cons.mp hx with rfl | hx
    · exact hlt
    · exact (hafter x hx hmatches).trans_lt hlt

/-- Otherwise the best of the others is still the one to find. -/
theorem IsBest.append {entries : List (Registration α)} {b e : Registration α}
    (hb : IsBest entries t b) (hle : e.pattern.matchesTriple t = true →
      e.pattern.specificity ≤ b.pattern.specificity) : IsBest (entries ++ [e]) t b := by
  obtain ⟨hmatches, before, after, rfl, hbefore, hafter⟩ := hb
  refine ⟨hmatches, before, after ++ [e], by simp, hbefore, fun x hx => ?_⟩
  rcases List.mem_append.mp hx with hx | hx
  · exact hafter x hx
  · rw [List.mem_singleton.mp hx]
    exact hle

theorem lookup_eq_none_iff :
    r.lookup t = none ↔ ∀ e ∈ r.entries, e.pattern.matchesTriple t = false := by
  rw [← Option.not_isSome_iff_eq_none, r.isSome_lookup_iff t]
  simp

/-- One more entry is compared with what was found among those before it. -/
theorem lookup_concat (entries : List (Registration α)) (e : Registration α) (t : Triple) :
    ({ entries := entries ++ [e] } : Registry α).lookup t =
      if e.pattern.matchesTriple t then better (({ entries } : Registry α).lookup t) e
      else ({ entries } : Registry α).lookup t := by
  by_cases he : e.pattern.matchesTriple t = true <;>
    simp [lookup, List.filter_append, List.foldl_append, he]

/-- What a look-up finds is the one to find. -/
theorem isBest_of_lookup {entries : List (Registration α)}
    (h : ({ entries } : Registry α).lookup t = some e) : IsBest entries t e := by
  -- a look-up goes on from the best so far, so the last entry comes off first
  induction entries using List.reverseRecOn generalizing e with
  | nil => cases h
  | append_singleton entries last ih =>
    rw [lookup_concat] at h
    split at h
    next hlast =>
      cases hfound : ({ entries } : Registry α).lookup t with
      | none =>
        -- nothing matched before
        rw [hfound, better, Option.some.injEq] at h
        subst h
        refine ⟨hlast, entries, [], rfl, fun b hb hmatches => ?_, by simp⟩
        rw [lookup_eq_none_iff.mp hfound b hb] at hmatches
        cases hmatches
      | some b =>
        rw [hfound, better] at h
        split at h
        next hlt => exact Option.some.inj h ▸ (ih hfound).concat hlast hlt
        next hge => exact Option.some.inj h ▸ (ih hfound).append fun _ => Nat.not_lt.mp hge
    next hlast => exact (ih h).append fun hmatches => absurd hmatches hlast

/-! ## All calls -/

/-- The entries of a registry after calls are those it had and those of the successful calls, each
under the text of its call. -/
theorem entries_afterCalls (r : Registry α) (calls : List (RegisterCall α)) :
    (r.afterCalls calls).entries =
        r.entries ++ (r.successes calls).filterMap RegisterCall.registration? ∧
      ((r.successes calls).filterMap RegisterCall.registration?).map (·.pattern.text) =
        (r.successes calls).map RegisterCall.text := by
  induction calls generalizing r with
  | nil => simp [afterCalls, successes]
  | cons call rest ih =>
    obtain ⟨hentries, htexts⟩ := ih (r.afterCall call)
    by_cases h : r.accepts call = true
    · obtain ⟨e, he, htext, hafter⟩ := afterCall_of_accepts h
      rw [afterCalls, List.foldl_cons, ← afterCalls, hentries]
      rw [hafter] at htexts ⊢
      simp [successes, h, he, htext, htexts, hafter]
    · have hafter := afterCall_of_not_accepts h
      rw [hafter] at hentries htexts
      rw [afterCalls, List.foldl_cons, ← afterCalls, hafter, hentries]
      simp [successes, h, htexts, hafter]

/-- What calls that are made one after another on an empty registry leave in it: the registrations
of the successful ones, in order. -/
def registered (calls : List (RegisterCall α)) : List (Registration α) :=
  (({} : Registry α).successes calls).filterMap RegisterCall.registration?

theorem afterCalls_eq (calls : List (RegisterCall α)) :
    ({} : Registry α).afterCalls calls = { entries := registered calls } := by
  have hentries := (entries_afterCalls ({} : Registry α) calls).1
  rw [List.nil_append] at hentries
  exact congrArg Registry.mk hentries

theorem isRead_of_mem_registered {calls : List (RegisterCall α)} (he : e ∈ registered calls) :
    e.pattern.IsRead := by
  obtain ⟨call, -, hcall⟩ := List.mem_filterMap.mp he
  exact (Pattern.isRead_of_parse (RegisterCall.parse_of_registration? hcall)).1

/-- A refused call may be left out. -/
theorem afterCalls_of_refused {before after : List (RegisterCall α)} {cause : RegistrationError}
    (h : (r.afterCalls before).register call.text call.value? = .error cause) :
    r.afterCalls (before ++ call :: after) = r.afterCalls (before ++ after) := by
  have hsame : (r.afterCalls before).afterCall call = r.afterCalls before := by
    rw [afterCall, h]
  unfold afterCalls at hsame ⊢
  rw [List.foldl_append, List.foldl_append, List.foldl_cons, hsame]

/-- A listing holds the texts of the entries, sorted by their bytes. -/
theorem patterns_sorted (r : Registry α) :
    r.patterns.Perm (r.entries.map (·.pattern.text)) ∧
      r.patterns.Pairwise fun a b => Text.bytesOfText a ≤ Text.bytesOfText b :=
  ⟨List.mergeSort_perm _ _, Text.pairwise_bytesOfText_mergeSort _⟩

/-- After any calls on an empty registry, refused ones among them, a look-up finds nothing exactly
when no registered pattern matches, and otherwise the first of the most specific registrations that
match. A refused call makes no difference to what comes later, and a listing holds the texts of the
successful calls, sorted by their bytes. -/
theorem lookup_after_calls (calls : List (RegisterCall α)) :
    (∀ t, ((({} : Registry α).afterCalls calls).lookup t = none ↔
        ∀ e ∈ registered calls, e.pattern.matchesTriple t = false) ∧
      ∀ e, (({} : Registry α).afterCalls calls).lookup t = some e →
        IsBest (registered calls) t e) ∧
      (∀ before call after cause, calls = before ++ call :: after →
        (({} : Registry α).afterCalls before).register call.text call.value? = .error cause →
        ({} : Registry α).afterCalls calls = ({} : Registry α).afterCalls (before ++ after)) ∧
      (({} : Registry α).afterCalls calls).patterns.Perm
        ((({} : Registry α).successes calls).map RegisterCall.text) ∧
      (({} : Registry α).afterCalls calls).patterns.Pairwise
        fun a b => Text.bytesOfText a ≤ Text.bytesOfText b := by
  refine ⟨fun t => ?_, ?_, ?_, (patterns_sorted _).2⟩
  · rw [afterCalls_eq]
    exact ⟨lookup_eq_none_iff, fun e => isBest_of_lookup⟩
  · rintro before call after cause rfl hrefused
    exact afterCalls_of_refused hrefused
  · have hperm := (patterns_sorted (({} : Registry α).afterCalls calls)).1
    rw [afterCalls_eq] at hperm ⊢
    exact hperm.trans (.of_eq (entries_afterCalls {} calls).2)

/-- A pattern is refused as a duplicate exactly when one with its canonical form is registered. -/
theorem register_eq_duplicate_iff {text : String} {value : α} :
    (∃ canonical, r.register text (some value) = .error (.duplicate canonical)) ↔
      ∃ p, Pattern.parse text = .ok p ∧ ∃ e ∈ r.entries, e.pattern.canonical = p.canonical := by
  have hregistered (p : Pattern) : r.isRegistered p.canonical = true ↔
      ∃ e ∈ r.entries, e.pattern.canonical = p.canonical := by
    simp [isRegistered]
  unfold register
  cases hp : Pattern.parse text with
  | error cause => simp
  | ok p =>
    simp only [Except.ok.injEq, exists_eq_left', ← hregistered]
    split <;> simp_all

/-- Duplicates are found by what patterns mean. Two texts that are patterns have one canonical form
exactly when they match the same platforms, and the canonical form is a pattern with the same parts.
So, after any calls on an empty registry, a registration is refused as a duplicate exactly when a
pattern that matches the same platforms is registered. -/
theorem duplicate_iff_same_platforms {s s' : String} {p q : Pattern}
    (hp : Pattern.parse s = .ok p) (hq : Pattern.parse s' = .ok q) :
    (p.canonical = q.canonical ↔ ∀ t, p.matchesTriple t = q.matchesTriple t) ∧
      (∃ p', Pattern.parse p.canonical = .ok p' ∧ p'.arch = p.arch ∧ p'.vendor = p.vendor ∧
        p'.os = p.os ∧ p'.env = p.env) ∧
      ∀ (calls : List (RegisterCall α)) (value : α),
        (∃ canonical, (({} : Registry α).afterCalls calls).register s (some value) =
          .error (.duplicate canonical)) ↔
        ∃ e ∈ registered calls, ∀ t, e.pattern.matchesTriple t = p.matchesTriple t := by
  have hread := (Pattern.isRead_of_parse hp).1
  refine ⟨Pattern.canonical_eq_iff_matches hread (Pattern.isRead_of_parse hq).1,
    ⟨_, Pattern.parse_canonical hread, rfl, rfl, rfl, rfl⟩, fun calls value => ?_⟩
  rw [register_eq_duplicate_iff, afterCalls_eq]
  -- what is registered was read, so its canonical form stands for what it matches
  constructor
  · rintro ⟨p', hp', e, he, hcanonical⟩
    obtain rfl : p' = p := Except.ok.inj (hp'.symm.trans hp)
    exact ⟨e, he, (Pattern.canonical_eq_iff_matches (isRead_of_mem_registered he) hread).mp
      hcanonical⟩
  · rintro ⟨e, he, hmatches⟩
    exact ⟨p, hp, e, he, (Pattern.canonical_eq_iff_matches (isRead_of_mem_registered he) hread).mpr
      hmatches⟩

/-- Architectures have other spellings, letter case and versions do not count, and a part may be
left out: the second pattern matches the platforms of the first. -/
theorem duplicate_of_other_spelling :
    ∃ canonical, (({} : Registry Unit).afterCalls [⟨"i686-*-linux2.6", some ()⟩]).register
      "I386--LINUX" (some ()) = .error (.duplicate canonical) := by
  let p : Pattern := ⟨.x86, "", .linux, .unknown, "I386--LINUX"⟩
  let q : Pattern := ⟨.x86, "", .linux, .unknown, "i686-*-linux2.6"⟩
  have hp : Pattern.parse "I386--LINUX" = .ok p := by decide +kernel
  have hq : Pattern.parse "i686-*-linux2.6" = .ok q := by decide +kernel
  have hregistered : registered [⟨"i686-*-linux2.6", some ()⟩] = [⟨q, ()⟩] := by
    simp [registered, successes, accepts, register, hq, RegisterCall.registration?, isRegistered,
      Except.isOk, Except.toBool]
  refine ((duplicate_iff_same_platforms hp hq).2.2 _ ()).mpr ⟨⟨q, ()⟩, ?_, fun t => ?_⟩
  · rw [hregistered, List.mem_singleton]
  · exact ((duplicate_iff_same_platforms (α := Unit) hp hq).1.mp rfl t).symm

end Registry

end CodeEmission

import CodeEmission.Platform.Resolver

/-!
# Resolving Names, Call after Call

A resolver keeps the profiles that it has built and hands them out again. Its callers do not notice:
what a call gives back depends on the name, the registry and the conventions alone, and only the
slot of a profile tells which calls share one.

* `ProfileCache.Sound`: each bucket has one entry, and that holds the profile of the bucket.
* `ProfileCache.Fetches`: what a fetch does to a cache. Entries keep their slots, so calls can be
  compared in the cache after the last of them.
* `ResolveError.Explains`: why a name does not resolve, by the kind of the failure.
* `Resolver.lawful_exchange`: a call finds the profile of a covered platform, or fails, says why and
  changes nothing.
* `Resolver.calls_see_through_cache`: what follows for all calls on a new resolver.
-/

namespace CodeEmission

/-! ## Caches -/

namespace ProfileCache

variable {c c' c'' : ProfileCache} {b b' : Bucket} {f g : Fetched}

/-- The buckets whose profiles were built, in the order of their slots. -/
def buckets (c : ProfileCache) : List Bucket :=
  c.entries.map Prod.fst

/-- What is true of a cache that was filled by fetching. -/
structure Sound (c : ProfileCache) : Prop where
  /-- No bucket has two entries. -/
  nodup : c.buckets.Nodup
  /-- An entry holds the profile of its bucket. -/
  built : ∀ e ∈ c.entries, Profile.ofBucket e.1 c.conventions = .ok e.2

theorem sound_empty (conventions : Conventions) : Sound { conventions } where
  nodup := List.nodup_nil
  built := fun _ he => absurd he List.not_mem_nil

/-- What is found stands in its slot. -/
theorem getElem?_slot_of_find? (h : c.find? b = some f) :
    c.entries[f.slot]? = some (b, f.profile) := by
  unfold find? at h
  split at h
  · cases h
  next i hi =>
    obtain ⟨⟨b', p⟩, hentry, rfl⟩ := Option.map_eq_some_iff.mp h
    obtain ⟨hlt, hb, -⟩ := List.findIdx?_eq_some_iff_getElem.mp hi
    rw [List.getElem?_eq_getElem hlt, Option.some.injEq] at hentry
    rw [hentry, decide_eq_true_eq] at hb
    rw [List.getElem?_eq_getElem hlt, hentry, ← hb]

/-- Nothing is found for the buckets without an entry. -/
theorem not_mem_buckets_of_find? (h : c.find? b = none) : b ∉ c.buckets := by
  unfold find? at h
  split at h
  next hnone =>
    intro hmem
    obtain ⟨e, he, rfl⟩ := List.mem_map.mp hmem
    have hne := List.findIdx?_eq_none_iff.mp hnone e he
    simp at hne
  next i hi =>
    obtain ⟨hlt, -⟩ := List.findIdx?_eq_some_iff_getElem.mp hi
    simp [List.getElem?_eq_getElem hlt] at h

/-- A profile of a bucket was fetched: it is in its slot afterwards, all older entries are where
they were, and the cache holds no other bucket than before. -/
structure Fetches (c : ProfileCache) (b : Bucket) (f : Fetched) (c' : ProfileCache) : Prop where
  sound : c'.Sound
  conventions : c'.conventions = c.conventions
  kept : c.entries <+: c'.entries
  entry : c'.entries[f.slot]? = some (b, f.profile)
  buckets : ∀ b', b' ∈ c'.buckets ↔ b' ∈ c.buckets ∨ b' = b

/-- The profile that was fetched is the one that is built for the bucket. -/
theorem Fetches.ofBucket (h : c.Fetches b f c') :
    Profile.ofBucket b c.conventions = .ok f.profile := by
  rw [← h.conventions]
  exact h.sound.built _ (List.mem_of_getElem? h.entry)

/-- A sound cache has one slot for a bucket. -/
theorem Sound.slot_eq_iff {i j : Nat} {p q : Profile} (hc : c.Sound)
    (hi : c.entries[i]? = some (b, p)) (hj : c.entries[j]? = some (b', q)) : i = j ↔ b = b' := by
  have hbi : c.buckets[i]? = some b := by simp [ProfileCache.buckets, hi]
  have hbj : c.buckets[j]? = some b' := by simp [ProfileCache.buckets, hj]
  obtain ⟨hlt, -⟩ := List.getElem?_eq_some_iff.mp hbi
  constructor
  · rintro rfl
    exact Option.some.inj (hbi.symm.trans hbj)
  · rintro rfl
    exact (List.getElem?_inj hlt hc.nodup).mp (hbi.trans hbj.symm)

/-- A profile can be fetched for every platform whose architecture has conventions. -/
theorem exists_get_eq_ok (hc : c.Sound) {t : Triple} (ht : t.arch.isSupported = true) :
    ∃ f c', c.get t = .ok (f, c') ∧ c.Fetches t.bucket f c' := by
  unfold get
  cases hfind : c.find? t.bucket with
  | some f =>
    have hentry := getElem?_slot_of_find? hfind
    have hmem : t.bucket ∈ c.buckets := List.mem_map.mpr ⟨_, List.mem_of_getElem? hentry, rfl⟩
    refine ⟨f, c, rfl, hc, rfl, List.prefix_refl _, hentry, fun b' => ?_⟩
    exact ⟨.inl, fun h => h.elim id fun h => h ▸ hmem⟩
  | none =>
    have hnew := not_mem_buckets_of_find? hfind
    obtain ⟨p, hp⟩ : ∃ p, Profile.ofBucket t.bucket c.conventions = .ok p := by
      rw [Profile.ofBucket, if_pos (show t.bucket.arch.isSupported = true from ht)]
      exact ⟨_, rfl⟩
    simp only [hp]
    refine ⟨_, _, rfl, ⟨?_, ?_⟩, rfl, List.prefix_append _ _, ?_, fun b' => ?_⟩
    · -- the new bucket was not among the old ones
      rw [ProfileCache.buckets, List.map_append, List.nodup_append]
      refine ⟨hc.nodup, by simp, fun b' hb' b'' hb'' => ?_⟩
      rw [List.mem_singleton.mp hb'']
      rintro rfl
      exact hnew hb'
    · intro e he
      rcases List.mem_append.mp he with he | he
      · exact hc.built e he
      · rw [List.mem_singleton.mp he]
        exact hp
    · simp
    · simp [ProfileCache.buckets]

/-- No profile can be fetched for the other platforms. -/
theorem get_eq_error (hc : c.Sound) {t : Triple} (ht : t.arch.isSupported = false) :
    c.get t = .error ⟨t.arch⟩ := by
  have hbuild (conventions : Conventions) :
      Profile.ofBucket t.bucket conventions = .error ⟨t.arch⟩ := by
    rw [Profile.ofBucket, if_neg (by simpa [Triple.bucket] using ht)]
    rfl
  unfold get
  cases hfind : c.find? t.bucket with
  | some f =>
    -- an entry of the bucket would hold a profile of it, and there is none
    have hbuilt := hc.built _ (List.mem_of_getElem? (getElem?_slot_of_find? hfind))
    rw [hbuild] at hbuilt
    cases hbuilt
  | none => simp only [hbuild]

end ProfileCache

/-! ## Registries -/

namespace Registry

variable {α : Type}

theorem isSome_foldl_better (b : Registration α) (l : List (Registration α)) :
    (l.foldl better (some b)).isSome = true := by
  induction l generalizing b with
  | nil => rfl
  | cons e rest ih =>
    rw [List.foldl_cons, better]
    split
    · exact ih e
    · exact ih b

/-- A look-up finds something exactly when a pattern matches. -/
theorem isSome_lookup_iff (r : Registry α) (t : Triple) :
    (r.lookup t).isSome = true ↔ ∃ e ∈ r.entries, e.pattern.matchesTriple t = true := by
  rw [lookup]
  cases hmatching : r.entries.filter fun e => e.pattern.matchesTriple t with
  | nil => simpa using List.filter_eq_nil_iff.mp hmatching
  | cons e rest =>
    have he : e ∈ r.entries.filter fun e => e.pattern.matchesTriple t := by simp [hmatching]
    rw [List.mem_filter] at he
    exact ⟨fun _ => ⟨e, he⟩, fun _ => isSome_foldl_better e rest⟩

/-- Whether a platform can be emitted for: a registered pattern matches it and its architecture has
conventions. -/
def Covers (r : Registry α) (t : Triple) : Prop :=
  (∃ e ∈ r.entries, e.pattern.matchesTriple t = true) ∧ t.arch.isSupported = true

end Registry

/-! ## Why a name is unknown -/

namespace ResolveError

variable {α : Type} {registry : Registry α} {name detail : String} {cause : ResolveError}

/-- What a failure says of a name, with the detail that its message gives. -/
inductive Explains (registry : Registry α) (name : String) : ResolveError → String → Prop
  /-- The name cannot be read. -/
  | badTriple {cause : TripleError} (hparse : Triple.parse name = .error cause) :
    Explains registry name (.badTriple cause) cause.message
  /-- No registered pattern matches. -/
  | noMatch {t : Triple} (hparse : Triple.parse name = .ok t)
    (hnone : ∀ e ∈ registry.entries, e.pattern.matchesTriple t = false) :
    Explains registry name (.noMatch t) t.render
  /-- A pattern matches and the architecture has no conventions. -/
  | noProfile {t : Triple} (hparse : Triple.parse name = .ok t)
    (hmatches : ∃ e ∈ registry.entries, e.pattern.matchesTriple t = true)
    (hunsupported : t.arch.isSupported = false) :
    Explains registry name (.noProfile ⟨t.arch⟩) (ProfileError.message ⟨t.arch⟩)

/-- A failure explains itself only for names that cannot be read or are not covered. -/
theorem Explains.not_covers (h : Explains registry name cause detail) {t : Triple}
    (ht : Triple.parse name = .ok t) : ¬ registry.Covers t := by
  rintro ⟨⟨e, he, hmatches⟩, hsupported⟩
  cases h with
  | badTriple hparse =>
    rw [ht] at hparse
    cases hparse
  | noMatch hparse hnone =>
    obtain rfl := Except.ok.inj (ht.symm.trans hparse)
    rw [hnone e he] at hmatches
    cases hmatches
  | noProfile hparse _ hunsupported =>
    obtain rfl := Except.ok.inj (ht.symm.trans hparse)
    rw [hunsupported] at hsupported
    cases hsupported

/-- A failure says that the target is unknown, and why. -/
theorem Explains.message_eq (h : Explains registry name cause detail) :
    cause.message = "unknown or unsupported target: " ++ detail := by
  cases h <;> rfl

end ResolveError

/-! ## Calls on a resolver -/

namespace Resolver

variable {α : Type} {r : Resolver α}

/-- A call on a resolver: for a target with its profile, or for the profile alone. -/
inductive Call where
  | resolve (name : String)
  | profile (name : String)
  deriving DecidableEq, Repr

/-- The platform name that is asked for. -/
def Call.name : Call → String
  | resolve name | profile name => name

/-- A call with what came of it. -/
structure Exchange (α : Type) where
  /-- The resolver before the call. -/
  before : Resolver α
  /-- The call. -/
  call : Call
  /-- The profile that the call gave back, with its slot, or the failure. -/
  reply : Except ResolveError Fetched
  /-- The resolver after the call. -/
  after : Resolver α

/-- The bucket of a call that was successful. -/
def Exchange.bucket? (x : Exchange α) : Option Bucket :=
  match x.reply, Triple.parse x.call.name with
  | .ok _, .ok t => some t.bucket
  | _, _ => none

/-- Make a call. -/
def exchange (r : Resolver α) (call : Call) : Exchange α :=
  let outcome : Except ResolveError (Fetched × Resolver α) := match call with
    | .resolve name => (r.resolve name).map fun (resolved, after) => (resolved.fetched, after)
    | .profile name => r.profile name
  match outcome with
  | .ok (fetched, after) => { before := r, call, reply := .ok fetched, after }
  | .error cause => { before := r, call, reply := .error cause, after := r }

/-- Make calls one after another, each on the resolver that the one before leaves. -/
def history (r : Resolver α) : List Call → List (Exchange α)
  | [] => []
  | call :: rest => r.exchange call :: (r.exchange call).after.history rest

/-- The resolver after calls. -/
def afterCalls (r : Resolver α) : List Call → Resolver α
  | [] => r
  | call :: rest => (r.exchange call).after.afterCalls rest

theorem exchange_eq (r : Resolver α) (call : Call) :
    r.exchange call = match r.profile call.name with
      | .ok (fetched, after) => { before := r, call, reply := .ok fetched, after }
      | .error cause => { before := r, call, reply := .error cause, after := r } := by
  cases call <;> rfl

@[simp]
theorem before_exchange (r : Resolver α) (call : Call) : (r.exchange call).before = r := by
  rw [exchange_eq]
  split <;> rfl

@[simp]
theorem call_exchange (r : Resolver α) (call : Call) : (r.exchange call).call = call := by
  rw [exchange_eq]
  split <;> rfl

/-- The ways in which a resolver answers a call: it fetches the profile of a platform that the
registry covers, or it fails, says why, and stays as it was. -/
inductive Exchange.Lawful (x : Exchange α) : Prop where
  | found (t : Triple) (f : Fetched) (hparse : Triple.parse x.call.name = .ok t)
    (hcovers : x.before.registry.Covers t) (hreply : x.reply = .ok f)
    (hregistry : x.after.registry = x.before.registry)
    (hfetches : x.before.cache.Fetches t.bucket f x.after.cache)
  | unknown (cause : ResolveError) (detail : String) (hreply : x.reply = .error cause)
    (hsame : x.after = x.before)
    (hwhy : cause.Explains x.before.registry x.call.name detail)

/-! ## One call -/

/-- The profile of a name that can be read and is covered is fetched. -/
theorem exists_profile_eq_ok (hr : r.cache.Sound) {name : String} {t : Triple}
    (hparse : Triple.parse name = .ok t) (hcovers : r.registry.Covers t) :
    ∃ f cache, r.profile name = .ok (f, { r with cache }) ∧ r.cache.Fetches t.bucket f cache := by
  obtain ⟨hmatches, hsupported⟩ := hcovers
  obtain ⟨registration, hlookup⟩ :=
    Option.isSome_iff_exists.mp ((r.registry.isSome_lookup_iff t).mpr hmatches)
  obtain ⟨f, cache, hget, hfetches⟩ := ProfileCache.exists_get_eq_ok hr hsupported
  refine ⟨f, cache, ?_, hfetches⟩
  simp only [profile, resolve, hparse, hlookup, hget, Except.map]

/-- Any other name fails, and the failure says why. -/
theorem exists_profile_eq_error (hr : r.cache.Sound) {name : String}
    (hnone : ∀ t, Triple.parse name = .ok t → ¬ r.registry.Covers t) :
    ∃ cause detail, r.profile name = .error cause ∧ cause.Explains r.registry name detail := by
  cases hparse : Triple.parse name with
  | error cause =>
    exact ⟨.badTriple cause, _, by simp only [profile, resolve, hparse, Except.map],
      .badTriple hparse⟩
  | ok t =>
    cases hlookup : r.registry.lookup t with
    | none =>
      have hmatches : ¬ ∃ e ∈ r.registry.entries, e.pattern.matchesTriple t = true := by
        rw [← r.registry.isSome_lookup_iff t, hlookup]
        exact Bool.false_ne_true
      exact ⟨.noMatch t, _, by simp only [profile, resolve, hparse, hlookup, Except.map],
        .noMatch hparse fun e he => Bool.eq_false_iff.mpr fun h => hmatches ⟨e, he, h⟩⟩
    | some registration =>
      -- a pattern matches, so it is the architecture that is not supported
      have hmatches := (r.registry.isSome_lookup_iff t).mp (by rw [hlookup]; rfl)
      have hsupported : t.arch.isSupported = false :=
        Bool.not_eq_true _ ▸ fun h => hnone t hparse ⟨hmatches, h⟩
      have hget := ProfileCache.get_eq_error hr hsupported
      exact ⟨.noProfile ⟨t.arch⟩, _,
        by simp only [profile, resolve, hparse, hlookup, hget, Except.map],
        .noProfile hparse hmatches hsupported⟩

/-- A resolver with a sound cache answers a call in one of the lawful ways. -/
theorem lawful_exchange (hr : r.cache.Sound) (call : Call) : (r.exchange call).Lawful := by
  by_cases hknown : ∃ t, Triple.parse call.name = .ok t ∧ r.registry.Covers t
  · obtain ⟨t, hparse, hcovers⟩ := hknown
    obtain ⟨f, cache, hprofile, hfetches⟩ := exists_profile_eq_ok hr hparse hcovers
    rw [exchange_eq, hprofile]
    exact .found t f hparse hcovers rfl rfl hfetches
  · have hnone : ∀ t, Triple.parse call.name = .ok t → ¬ r.registry.Covers t :=
      fun t hparse hcovers => hknown ⟨t, hparse, hcovers⟩
    obtain ⟨cause, detail, hprofile, hwhy⟩ := exists_profile_eq_error hr hnone
    rw [exchange_eq, hprofile]
    exact .unknown cause detail rfl rfl hwhy

namespace Exchange.Lawful

variable {x : Exchange α}

theorem sound_after (h : x.Lawful) (hx : x.before.cache.Sound) : x.after.cache.Sound := by
  cases h with
  | found t f _ _ _ _ hfetches => exact hfetches.sound
  | unknown cause _ _ hsame _ => exact hsame ▸ hx

theorem registry_after (h : x.Lawful) : x.after.registry = x.before.registry := by
  cases h with
  | found t f _ _ _ hregistry _ => exact hregistry
  | unknown cause _ _ hsame _ => rw [hsame]

theorem conventions_after (h : x.Lawful) :
    x.after.cache.conventions = x.before.cache.conventions := by
  cases h with
  | found t f _ _ _ _ hfetches => exact hfetches.conventions
  | unknown cause _ _ hsame _ => rw [hsame]

theorem entries_isPrefix (h : x.Lawful) : x.before.cache.entries <+: x.after.cache.entries := by
  cases h with
  | found t f _ _ _ _ hfetches => exact hfetches.kept
  | unknown cause _ _ hsame _ => exact hsame ▸ List.prefix_refl _

/-- A call is successful exactly for the names that can be read and are covered. -/
theorem isOk_iff (h : x.Lawful) :
    (∃ f, x.reply = .ok f) ↔
      ∃ t, Triple.parse x.call.name = .ok t ∧ x.before.registry.Covers t := by
  cases h with
  | found t f hparse hcovers hreply _ _ =>
    exact ⟨fun _ => ⟨t, hparse, hcovers⟩, fun _ => ⟨f, hreply⟩⟩
  | unknown cause _ hreply _ hwhy =>
    constructor
    · rintro ⟨f, hf⟩
      rw [hreply] at hf
      cases hf
    · rintro ⟨t, hparse, hcovers⟩
      exact absurd hcovers (hwhy.not_covers hparse)

/-- What a successful call fetched. -/
theorem fetches_of_ok (h : x.Lawful) {f : Fetched} (hf : x.reply = .ok f) :
    ∃ t, Triple.parse x.call.name = .ok t ∧ x.bucket? = some t.bucket ∧
      x.before.cache.Fetches t.bucket f x.after.cache := by
  cases h with
  | found t f' hparse _ hreply _ hfetches =>
    obtain rfl : f' = f := by simpa [hreply] using hf
    exact ⟨t, hparse, by simp [bucket?, hreply, hparse], hfetches⟩
  | unknown cause _ hreply _ _ => simp [hreply] at hf

/-- A call that failed says why and left everything as it was. -/
theorem explains_of_error (h : x.Lawful) {cause : ResolveError} (hcause : x.reply = .error cause) :
    (∃ detail, cause.Explains x.before.registry x.call.name detail) ∧ x.after = x.before := by
  cases h with
  | found t f _ _ hreply _ _ => simp [hreply] at hcause
  | unknown cause' detail hreply hsame hwhy =>
    obtain rfl : cause' = cause := by simpa [hreply] using hcause
    exact ⟨⟨detail, hwhy⟩, hsame⟩

/-- The buckets in the cache grow by that of a successful call. -/
theorem mem_buckets_after (h : x.Lawful) (b : Bucket) :
    b ∈ x.after.cache.buckets ↔ b ∈ x.before.cache.buckets ∨ x.bucket? = some b := by
  cases h with
  | found t f hparse _ hreply _ hfetches =>
    simp only [hfetches.buckets, bucket?, hreply, hparse, Option.some.injEq, eq_comm (a := b)]
  | unknown cause _ hreply hsame _ => simp [bucket?, hreply, hsame]

end Exchange.Lawful

/-! ## All calls -/

/-- Entries that a resolver has it still has, in their slots, after further calls, and its cache is
still sound. -/
theorem sound_afterCalls (hr : r.cache.Sound) (calls : List Call) :
    (r.afterCalls calls).cache.Sound ∧ r.cache.entries <+: (r.afterCalls calls).cache.entries := by
  induction calls generalizing r with
  | nil => exact ⟨hr, List.prefix_refl _⟩
  | cons call rest ih =>
    have hlawful := lawful_exchange hr call
    have hsound := hlawful.sound_after (by simpa using hr)
    have hkept := hlawful.entries_isPrefix
    rw [before_exchange] at hkept
    exact ⟨(ih hsound).1, hkept.trans (ih hsound).2⟩

/-- Every call of a history is lawful, on a resolver with the registry and the conventions of the
first one, and what it fetched is in its slot after the last call. -/
theorem lawful_of_mem_history (hr : r.cache.Sound) {calls : List Call} {x : Exchange α}
    (hx : x ∈ r.history calls) :
    x.Lawful ∧ x.before.registry = r.registry ∧
      x.before.cache.conventions = r.cache.conventions ∧
      x.after.cache.entries <+: (r.afterCalls calls).cache.entries := by
  induction calls generalizing r with
  | nil => cases hx
  | cons call rest ih =>
    have hlawful := lawful_exchange hr call
    have hsound := hlawful.sound_after (by simpa using hr)
    rcases List.mem_cons.mp hx with rfl | hx
    · exact ⟨hlawful, by simp, by simp, (sound_afterCalls hsound rest).2⟩
    · obtain ⟨hlater, hregistry, hconventions, hkept⟩ := ih hsound hx
      refine ⟨hlater, hregistry.trans ?_, hconventions.trans ?_, hkept⟩
      · simpa using hlawful.registry_after
      · simpa using hlawful.conventions_after

/-- The buckets in the cache are those that it held before and those of the successful calls. -/
theorem mem_buckets_afterCalls (hr : r.cache.Sound) (calls : List Call) (b : Bucket) :
    b ∈ (r.afterCalls calls).cache.buckets ↔
      b ∈ r.cache.buckets ∨ ∃ x ∈ r.history calls, x.bucket? = some b := by
  induction calls generalizing r with
  | nil => simp [afterCalls, history]
  | cons call rest ih =>
    have hlawful := lawful_exchange hr call
    have hsound := hlawful.sound_after (by simpa using hr)
    have hfirst := hlawful.mem_buckets_after b
    rw [before_exchange] at hfirst
    simp only [afterCalls, history, ih hsound, hfirst, List.mem_cons, exists_eq_or_imp, or_assoc]

theorem getElem?_of_isPrefix {β : Type} {l l' : List β} (h : l <+: l') {i : Nat} {a : β}
    (ha : l[i]? = some a) : l'[i]? = some a := by
  obtain ⟨hi, rfl⟩ := List.getElem?_eq_some_iff.mp ha
  exact List.prefix_iff_getElem?.mp h i hi

/-- Resolving is the same with the cache as without it, over any sequence of calls on a new
resolver. A call is successful exactly when its name can be read and the registry covers the
platform; it then gives the profile that is built for that platform. Otherwise the name cannot be read,
no pattern matches, or the architecture has no conventions; the call fails with that reason, worded as
an unknown target, and changes nothing. Two successful calls share a slot exactly when their platforms
share a bucket, and in the end there is one entry for every bucket of a successful call and no
other. -/
theorem calls_see_through_cache (registry : Registry α) (conventions : Conventions)
    (calls : List Call) :
    (∀ x ∈ (ofRegistry registry conventions).history calls,
        ((∃ f, x.reply = .ok f) ↔
          ∃ t, Triple.parse x.call.name = .ok t ∧ registry.Covers t) ∧
        (∀ f, x.reply = .ok f →
          ∃ t, Triple.parse x.call.name = .ok t ∧ Profile.ofTriple t conventions = .ok f.profile) ∧
        ∀ cause, x.reply = .error cause →
          (∃ detail, cause.Explains registry x.call.name detail ∧
            cause.message = "unknown or unsupported target: " ++ detail) ∧
              x.after = x.before) ∧
      (∀ x ∈ (ofRegistry registry conventions).history calls,
        ∀ y ∈ (ofRegistry registry conventions).history calls, ∀ f g t u,
          x.reply = .ok f → y.reply = .ok g →
          Triple.parse x.call.name = .ok t → Triple.parse y.call.name = .ok u →
          (f.slot = g.slot ↔ t.bucket = u.bucket)) ∧
      ((ofRegistry registry conventions).afterCalls calls).cache.buckets.Nodup ∧
      ∀ b, b ∈ ((ofRegistry registry conventions).afterCalls calls).cache.buckets ↔
        ∃ x ∈ (ofRegistry registry conventions).history calls, x.bucket? = some b := by
  have hnew : (ofRegistry registry conventions).cache.Sound := ProfileCache.sound_empty conventions
  have hlast := (sound_afterCalls hnew calls).1
  refine ⟨fun x hx => ?_, fun x hx y hy f g t u hf hg ht hu => ?_, hlast.nodup, fun b => ?_⟩
  · obtain ⟨hlawful, hregistry, hconventions, -⟩ := lawful_of_mem_history hnew hx
    refine ⟨by rw [hlawful.isOk_iff, hregistry]; rfl, fun f hf => ?_, fun cause hcause => ?_⟩
    · obtain ⟨t, hparse, -, hfetches⟩ := hlawful.fetches_of_ok hf
      have hbuilt := hfetches.ofBucket
      rw [hconventions] at hbuilt
      exact ⟨t, hparse, hbuilt⟩
    · obtain ⟨⟨detail, hwhy⟩, hsame⟩ := hlawful.explains_of_error hcause
      rw [hregistry] at hwhy
      exact ⟨⟨detail, hwhy, hwhy.message_eq⟩, hsame⟩
  · -- both entries are in their slots after the last call, where each bucket has one slot
    obtain ⟨hx', -, -, hkeptx⟩ := lawful_of_mem_history hnew hx
    obtain ⟨hy', -, -, hkepty⟩ := lawful_of_mem_history hnew hy
    obtain ⟨t', ht', -, hfetchx⟩ := hx'.fetches_of_ok hf
    obtain ⟨u', hu', -, hfetchy⟩ := hy'.fetches_of_ok hg
    obtain rfl : t' = t := Except.ok.inj (ht'.symm.trans ht)
    obtain rfl : u' = u := Except.ok.inj (hu'.symm.trans hu)
    exact hlast.slot_eq_iff (getElem?_of_isPrefix hkeptx hfetchx.entry)
      (getElem?_of_isPrefix hkepty hfetchy.entry)
  · simpa [ofRegistry, ProfileCache.buckets] using mem_buckets_afterCalls hnew calls b

end Resolver

end CodeEmission

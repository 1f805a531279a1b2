import CodeEmission.Proofs.Platform.Registrations

/-!
# Narrower Patterns in Look-ups

One pattern is narrower than another one when it matches fewer platforms. The rank that a look-up
goes by follows that order, but not strictly: a vendor does not count, and the whole Darwin family
counts as much as one of its members. Between patterns that differ in nothing else the earlier
registration wins.

* `Pattern.includes_iff`: one pattern includes another one when it matches the platform of the
  other one's own parts.
* `Pattern.specificity_eq_iff`: a pattern that includes another one has the same rank when the two
  differ in vendor and Darwin family alone.
* `Registry.IsBest.unique`: there is at most one registration to find.
* `Registry.narrowest_found_iff`: a pattern that is narrower than all others that match is found
  exactly when no earlier one differs from it in vendor and Darwin family alone.

The pattern `x86_64-apple` is not found behind `x86_64` (`Registry.vendor_pattern_passed_over`).
-/

namespace CodeEmission

namespace Pattern

variable {p q : Pattern}

/-- One pattern matches all platforms of another one. -/
def Includes (q p : Pattern) : Prop :=
  ∀ t, p.matchesTriple t = true → q.matchesTriple t = true

/-- One pattern matches fewer platforms than another one, and no others. -/
def Narrower (p q : Pattern) : Prop :=
  q.Includes p ∧ ∃ t, q.matchesTriple t = true ∧ p.matchesTriple t = false

/-- Two patterns have the same parts but for the vendor, or but for the vendor and a member of the
Darwin family where the first one allows the whole family. -/
structure UpToVendor (q p : Pattern) : Prop where
  os : q.os = p.os ∨ q.os = .darwin ∧ (p.os = .macosx ∨ p.os = .ios)
  env : q.env = p.env

theorem upToVendor_iff :
    q.UpToVendor p ↔ (q.os = p.os ∨ q.os = .darwin ∧ (p.os = .macosx ∨ p.os = .ios)) ∧
      q.env = p.env :=
  ⟨fun h => ⟨h.os, h.env⟩, fun h => ⟨h.1, h.2⟩⟩

/-- Whether two patterns differ in vendor and Darwin family alone can be computed. -/
instance (q p : Pattern) : Decidable (q.UpToVendor p) :=
  decidable_of_iff _ upToVendor_iff.symm

/-- The platform of a pattern's own parts. -/
def own (p : Pattern) : Triple :=
  { arch := p.arch, vendor := p.vendor, os := p.os, env := p.env }

theorem matches_own (p : Pattern) : p.matchesTriple p.own = true := by
  simp [matchesTriple_iff, own]

/-- A pattern includes another one when it matches the platform of the other one's own parts. -/
theorem includes_iff : q.Includes p ↔ q.matchesTriple p.own = true := by
  constructor
  · exact fun h => h p.own p.matches_own
  · intro hown t ht
    rw [matchesTriple_iff] at hown ht ⊢
    obtain ⟨harch, hvendor, hos, henv⟩ := hown
    obtain ⟨harch', hvendor', hos', henv'⟩ := ht
    -- what the own platform does not tell is allowed by both
    refine ⟨harch.trans harch', ?_, ?_, ?_⟩
    · rcases hvendor with hany | hsame
      · exact .inl hany
      · exact hvendor'.imp (hsame.trans ·) (hsame.trans ·)
    · simp only [own] at hos
      grind
    · rcases henv with hany | hsame
      · exact .inl hany
      · exact henv'.imp (hsame.trans ·) (hsame.trans ·)

/-- What a pattern leaves open in comparison with one that it includes. -/
theorem Includes.parts (h : q.Includes p) :
    (q.os = .unknown ∨ q.os = p.os ∨ q.os = .darwin ∧ (p.os = .macosx ∨ p.os = .ios)) ∧
      (q.env = .unknown ∨ q.env = p.env) := by
  obtain ⟨-, -, hos, henv⟩ := (matchesTriple_iff q p.own).mp (includes_iff.mp h)
  exact ⟨hos, henv⟩

/-- A pattern has no higher rank than one that it includes. -/
theorem Includes.specificity_le (h : q.Includes p) : q.specificity ≤ p.specificity := by
  obtain ⟨hos, henv⟩ := h.parts
  unfold specificity
  grind

/-- It has the same rank when the two differ in vendor and Darwin family alone. -/
theorem Includes.specificity_eq_iff (h : q.Includes p) :
    q.specificity = p.specificity ↔ q.UpToVendor p := by
  obtain ⟨hos, henv⟩ := h.parts
  rw [upToVendor_iff]
  unfold specificity
  grind

end Pattern

namespace Registry

variable {α : Type} {t : Triple} {e : Registration α}

/-- There is at most one registration to find for a platform. -/
theorem IsBest.unique {entries : List (Registration α)} {a b : Registration α}
    (ha : IsBest entries t a) (hb : IsBest entries t b) : a = b := by
  -- the first of two different ones would have both the higher and the lower rank
  have hfirst {before after before' after' : List (Registration α)} {a b : Registration α}
      (hmatches : a.pattern.matchesTriple t = true) (hmatches' : b.pattern.matchesTriple t = true)
      (hafter : ∀ x ∈ after, x.pattern.matchesTriple t = true →
        x.pattern.specificity ≤ a.pattern.specificity)
      (hbefore : ∀ x ∈ before', x.pattern.matchesTriple t = true →
        x.pattern.specificity < b.pattern.specificity)
      {between : List (Registration α)} (hbetween : before' = before ++ between)
      (hrest : a :: after = between ++ b :: after') : a = b := by
    cases between with
    | nil => exact (List.cons.inj hrest).1
    | cons x rest =>
      obtain ⟨rfl, rfl⟩ := List.cons.inj hrest
      have hlt := hbefore a (by simp [hbetween]) hmatches
      have hle := hafter b (by simp) hmatches'
      omega
  obtain ⟨hmatches, before, after, rfl, hbefore, hafter⟩ := ha
  obtain ⟨hmatches', before', after', hentries, hbefore', hafter'⟩ := hb
  rcases List.append_eq_append_iff.mp hentries with ⟨between, hbetween, hrest⟩ |
    ⟨between, hbetween, hrest⟩
  · exact hfirst hmatches hmatches' hafter hbefore' hbetween hrest
  · exact (hfirst hmatches' hmatches hafter' hbefore hbetween hrest).symm

theorem lookup_eq_some_iff {entries : List (Registration α)} :
    ({ entries } : Registry α).lookup t = some e ↔ IsBest entries t e := by
  constructor
  · exact isBest_of_lookup
  · intro hbest
    cases hfound : ({ entries } : Registry α).lookup t with
    | some found => rw [(isBest_of_lookup hfound).unique hbest]
    | none =>
      obtain ⟨hmatches, before, after, rfl, -, -⟩ := hbest
      rw [lookup_eq_none_iff.mp hfound e (by simp)] at hmatches
      cases hmatches

/-- The registration that is found instead of a narrower one: the first of the earlier ones that
match and differ from it in vendor and Darwin family alone. -/
def rival? (before : List (Registration α)) (t : Triple) (e : Registration α) :
    Option (Registration α) :=
  before.find? fun o => o.pattern.matchesTriple t && decide (o.pattern.UpToVendor e.pattern)

theorem rival?_eq_some {before : List (Registration α)} {rival : Registration α}
    (h : rival? before t e = some rival) :
    rival ∈ before ∧ rival.pattern.matchesTriple t = true ∧
      rival.pattern.UpToVendor e.pattern :=
  ⟨List.mem_of_find?_eq_some h, by simpa using List.find?_some h⟩

theorem rival?_eq_none_iff {before : List (Registration α)} :
    rival? before t e = none ↔
      ∀ o ∈ before, o.pattern.matchesTriple t = true → ¬ o.pattern.UpToVendor e.pattern := by
  simp [rival?]

/-- Where all that match include a pattern, its rival is the one to find, and itself if it has
none. -/
theorem isBest_of_includes {before after : List (Registration α)}
    (hmatches : e.pattern.matchesTriple t = true)
    (hincludes : ∀ o ∈ before ++ after, o.pattern.matchesTriple t = true →
      o.pattern.Includes e.pattern) :
    IsBest (before ++ e :: after) t ((rival? before t e).getD e) := by
  have hle {o : Registration α} (ho : o ∈ before ++ after)
      (hmatch : o.pattern.matchesTriple t = true) :
      o.pattern.specificity ≤ e.pattern.specificity := (hincludes o ho hmatch).specificity_le
  have hlt {o : Registration α} (ho : o ∈ before) (hmatch : o.pattern.matchesTriple t = true)
      (hnot : ¬ o.pattern.UpToVendor e.pattern) :
      o.pattern.specificity < e.pattern.specificity := by
    have hmem : o ∈ before ++ after := List.mem_append_left _ ho
    refine (hle hmem hmatch).lt_of_ne fun heq => hnot ?_
    exact (hincludes o hmem hmatch).specificity_eq_iff.mp heq
  cases hrival : rival? before t e with
  | none =>
    exact ⟨hmatches, before, after, rfl,
      fun o ho hmatch => hlt ho hmatch (rival?_eq_none_iff.mp hrival o ho hmatch),
      fun o ho hmatch => hle (List.mem_append_right _ ho) hmatch⟩
  | some rival =>
    obtain ⟨hmem, hmatch', hup⟩ := rival?_eq_some hrival
    have hrank : rival.pattern.specificity = e.pattern.specificity :=
      (hincludes rival (List.mem_append_left _ hmem) hmatch').specificity_eq_iff.mpr hup
    -- none of those before the rival is one itself
    obtain ⟨-, first, second, rfl, hfirst⟩ := List.find?_eq_some_iff_append.mp hrival
    rw [Option.getD_some]
    refine ⟨hmatch', first, second ++ e :: after, by simp, fun o ho hmatch => ?_,
      fun o ho hmatch => ?_⟩
    · rw [hrank]
      refine hlt (by simp [ho]) hmatch fun hup' => ?_
      simpa [hmatch, hup'] using hfirst o ho
    · rw [hrank]
      rcases List.mem_append.mp ho with ho | ho
      · exact hle (by simp [ho]) hmatch
      · rcases List.mem_cons.mp ho with rfl | ho
        · exact le_rfl
        · exact hle (by simp [ho]) hmatch

/-- After any calls on an empty registry, let a registered pattern match a platform and be narrower
than every other registered one that matches. It is found exactly when none that was registered
before it and matches differs from it in vendor and Darwin family alone; otherwise the first of
those is found. -/
theorem narrowest_found_iff {calls : List (RegisterCall α)} {before after : List (Registration α)}
    (hentries : registered calls = before ++ e :: after)
    (hmatches : e.pattern.matchesTriple t = true)
    (hnarrow : ∀ o ∈ before ++ after, o.pattern.matchesTriple t = true →
      e.pattern.Narrower o.pattern) :
    ((({} : Registry α).afterCalls calls).lookup t = some e ↔
        ∀ o ∈ before, o.pattern.matchesTriple t = true → ¬ o.pattern.UpToVendor e.pattern) ∧
      (({} : Registry α).afterCalls calls).lookup t = some ((rival? before t e).getD e) := by
  have hfound := lookup_eq_some_iff.mpr
    (isBest_of_includes hmatches fun o ho hmatch => (hnarrow o ho hmatch).1)
  rw [afterCalls_eq, hentries, hfound, Option.some.injEq, ← rival?_eq_none_iff]
  refine ⟨?_, rfl⟩
  cases hrival : rival? before t e with
  | none => simp
  | some rival =>
    refine iff_of_false (fun hsame => ?_) (Option.some_ne_none rival)
    -- a pattern is not narrower than itself
    obtain ⟨hmem, hmatch, -⟩ := rival?_eq_some hrival
    obtain ⟨-, u, hu, hnot⟩ := hnarrow rival (List.mem_append_left _ hmem) hmatch
    rw [Option.getD_some] at hsame
    rw [hsame, hnot] at hu
    cases hu

/-- A member of the Darwin family is found where the family is registered behind it. -/
theorem macosx_found_before_family :
    let calls : List (RegisterCall Unit) :=
      [⟨"x86_64", some ()⟩, ⟨"x86_64-*-macosx10.9", some ()⟩, ⟨"x86_64-*-darwin", some ()⟩]
    let any : Registration Unit := ⟨⟨.x86_64, "", .unknown, .unknown, "x86_64"⟩, ()⟩
    let member : Registration Unit := ⟨⟨.x86_64, "", .macosx, .unknown, "x86_64-*-macosx10.9"⟩, ()⟩
    let family : Registration Unit := ⟨⟨.x86_64, "", .darwin, .unknown, "x86_64-*-darwin"⟩, ()⟩
    let mac : Triple := ⟨.x86_64, "apple", .macosx, .unknown⟩
    registered calls = [any] ++ member :: [family] ∧ member.pattern.matchesTriple mac = true ∧
      (∀ o ∈ [any] ++ [family], o.pattern.matchesTriple mac = true →
        member.pattern.Narrower o.pattern) ∧
      (({} : Registry Unit).afterCalls calls).lookup mac = some member := by
  intro calls any member family mac
  have hentries : registered calls = [any] ++ member :: [family] := rfl
  have hmatches : member.pattern.matchesTriple mac = true := by decide
  have hnarrow : ∀ o ∈ [any] ++ [family], o.pattern.matchesTriple mac = true →
      member.pattern.Narrower o.pattern := by
    intro o ho _
    rcases List.mem_cons.mp ho with rfl | ho
    · exact ⟨Pattern.includes_iff.mpr (by decide), ⟨.x86_64, "pc", .linux, .gnu⟩, by decide⟩
    · obtain rfl := List.mem_singleton.mp ho
      exact ⟨Pattern.includes_iff.mpr (by decide), ⟨.x86_64, "apple", .ios, .unknown⟩, by decide⟩
  refine ⟨hentries, hmatches, hnarrow, ?_⟩
  exact (narrowest_found_iff hentries hmatches hnarrow).1.mpr (by decide)

/-- A pattern with a vendor matches the platform and is narrower than the other one, and still the
other one is found, for it was registered before and vendors have no rank. -/
theorem vendor_pattern_passed_over :
    let calls : List (RegisterCall Unit) := [⟨"x86_64", some ()⟩, ⟨"x86_64-apple", some ()⟩]
    let any : Registration Unit := ⟨⟨.x86_64, "", .unknown, .unknown, "x86_64"⟩, ()⟩
    let apple : Registration Unit := ⟨⟨.x86_64, "apple", .unknown, .unknown, "x86_64-apple"⟩, ()⟩
    let platform : Triple := ⟨.x86_64, "apple", .linux, .unknown⟩
    registered calls = [any, apple] ∧ apple.pattern.matchesTriple platform = true ∧
      apple.pattern.Narrower any.pattern ∧
      (({} : Registry Unit).afterCalls calls).lookup platform = some any ∧
      (({} : Registry Unit).afterCalls calls).lookup platform ≠ some apple := by
  intro calls any apple platform
  have hfound : (({} : Registry Unit).afterCalls calls).lookup platform = some any := rfl
  refine ⟨rfl, by decide, ?_, hfound, ?_⟩
  · exact ⟨Pattern.includes_iff.mpr (by decide), ⟨.x86_64, "pc", .linux, .gnu⟩, by decide⟩
  · rw [hfound]
    intro hsame
    have htexts : "x86_64" = "x86_64-apple" :=
      congrArg (·.pattern.text) (Option.some.inj hsame)
    exact absurd htexts (by decide)

end Registry

end CodeEmission

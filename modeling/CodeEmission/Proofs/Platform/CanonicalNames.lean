import CodeEmission.Proofs.Platform.Patterns

/-!
# Canonical Names of Platforms

The canonical name of a platform is `arch-vendor-os`, with the environment behind it if that is
known. Reading it should give the platform back. It does so but for one kind of platform: where
neither the operating system nor the environment is known, the name has three words, and if the
vendor's word also names an operating system, it is read as `arch-os-env` without a vendor.

* `Triple.isRead_of_parse`: what is true of every platform that was read.
* `Triple.components_render`: the words of a canonical name.
* `Triple.parse_render`: what a canonical name is read as.
* `Triple.canonical_name_reread_iff`: a platform that was read is given back by its canonical name
  exactly when its vendor is not mistaken.

The name `x86_64-linux-foo-bar` is read with the vendor `linux`, and its canonical name is not
(`Triple.linux_vendor_mistaken`).
-/

namespace CodeEmission.Triple

variable {s : String} {t : Triple}

/-! ## Platforms that were read -/

/-- What is true of every platform that was read. -/
structure IsRead (t : Triple) : Prop where
  /-- The vendor is one word. -/
  vendor_dash : '-' ∉ t.vendor.toList
  /-- There is a vendor; one that was not given is called `unknown`. -/
  vendor_ne_empty : t.vendor ≠ ""
  /-- The environment has a name, or it is not known. -/
  env : t.env ≠ .unassigned

/-- A vendor that is given is one of the words. -/
theorem mem_of_splitVendor {rest tail : List String} {vendor : String}
    (h : splitVendor rest = (some vendor, tail)) : vendor ∈ rest := by
  unfold splitVendor at h
  split at h
  next first second more =>
    split at h
    · cases h
    · cases h
      exact List.mem_cons_self
  next => cases h

/-- A platform whose words have no separator in them. -/
theorem isRead_ofComponents (arch : String) {rest : List String}
    (hwords : ∀ word ∈ rest, '-' ∉ word.toList) : (ofComponents arch rest).IsRead := by
  unfold ofComponents
  rcases hcut : splitVendor rest with ⟨vendor?, tail⟩
  constructor
  case vendor_dash =>
    dsimp only
    split
    · decide
    · decide
    next vendor hne => exact hwords vendor (mem_of_splitVendor hcut)
  case vendor_ne_empty =>
    dsimp only
    split
    · decide
    · decide
    next vendor hne => exact fun hempty => hne (hempty ▸ rfl)
  case env =>
    dsimp only
    split
    · exact Environment.ofName_ne_unassigned _
    · exact nofun

theorem isRead_of_parse (h : parse s = .ok t) : t.IsRead := by
  simp only [parse] at h
  split at h
  · cases h
  · split at h
    · cases h
    next arch rest hparts =>
      cases h
      refine isRead_ofComponents arch fun word hword => ?_
      have hmem : word ∈ components (Text.trim s) := hparts ▸ List.mem_cons_of_mem arch hword
      obtain ⟨part, hpart, rfl⟩ := List.mem_map.mp hmem
      simpa using Text.not_mem_of_mem_splitOn hpart

/-! ## Canonical names -/

/-- The words of a canonical name. -/
def words (t : Triple) : List String :=
  [t.arch.name, t.vendor, t.os.name] ++ if t.env = .unknown then [] else [t.env.name]

theorem render_eq_intercalate (h : t.IsRead) : t.render = String.intercalate "-" t.words := by
  rw [render, words, if_neg h.vendor_ne_empty]
  split
  · rw [String.append_empty]
    rfl
  · rw [← String.append_assoc]
    rfl

/-- The words of the canonical name of a platform that was read stand apart. -/
theorem components_render (h : t.IsRead) : components t.render = t.words := by
  have hdash : ∀ word ∈ t.words, '-' ∉ word.toList := by
    unfold words
    split <;> simp [Arch.dash_not_mem_name, h.vendor_dash, OS.dash_not_mem_name,
      Environment.dash_not_mem_name]
  rw [render_eq_intercalate h, components]
  exact Text.splitOn_intercalate rfl (List.cons_ne_nil _ _) hdash

theorem trim_render (t : Triple) : Text.trim t.render = t.render := by
  -- the last word is the environment, if it is written
  by_cases henv : t.env = .unknown
  · have hchars : t.render.toList = t.arch.name.toList ++
        ("-" ++ (if t.vendor = "" then "unknown" else t.vendor) ++ "-").toList ++
          t.os.name.toList := by
      simp [render, henv]
    refine Text.trim_of_ends hchars t.arch.head_name ?_
    cases t.os <;> exact ⟨_, rfl, rfl⟩
  · have hchars : t.render.toList = t.arch.name.toList ++
        ("-" ++ (if t.vendor = "" then "unknown" else t.vendor) ++ "-" ++ t.os.name ++
          "-").toList ++ t.env.name.toList := by
      simp [render, henv]
    exact Text.trim_of_ends hchars t.arch.head_name t.env.getLast_name

/-- The canonical name of a platform is read as if it had no vendor: there are three words, of which
the second names an operating system and the third, which stands for none, does not. -/
def VendorMistaken (t : Triple) : Prop :=
  t.os = .unknown ∧ t.env = .unknown ∧ OS.ofName t.vendor ≠ .unknown

/-- Whether a vendor is mistaken can be computed. -/
instance (t : Triple) : Decidable t.VendorMistaken :=
  inferInstanceAs (Decidable (_ ∧ _ ∧ _))

/-- What the canonical name of a platform is read as. -/
def reread (t : Triple) : Triple :=
  if t.VendorMistaken then { t with vendor := "unknown", os := OS.ofName t.vendor } else t

/-- The words after the architecture are divided into the vendor and the others, unless the vendor
is mistaken. -/
theorem splitVendor_words (t : Triple) :
    splitVendor (t.words.drop 1) =
      if t.VendorMistaken then (none, t.words.drop 1) else (some t.vendor, t.words.drop 2) := by
  by_cases henv : t.env = .unknown
  · simp [words, splitVendor, VendorMistaken, henv, OS.ofName_name, and_comm]
  · simp [words, splitVendor, VendorMistaken, henv]

theorem ofComponents_words (h : t.IsRead) :
    ofComponents t.arch.name (t.words.drop 1) = t.reread := by
  unfold ofComponents reread
  rw [splitVendor_words]
  by_cases hmistaken : t.VendorMistaken
  · -- the second word is taken for the operating system, the third for an environment
    obtain ⟨hos, henv, -⟩ := id hmistaken
    have hword : Environment.ofName "unknown" = .unknown := by decide
    simp [hmistaken, words, hos, henv, Arch.ofName_name, OS.name, hword]
  · rw [if_neg hmistaken, if_neg hmistaken]
    dsimp only
    split
    next hnone => cases hnone
    next hempty => exact absurd (Option.some.inj hempty) h.vendor_ne_empty
    next vendor _ hsome =>
      obtain rfl : t.vendor = vendor := Option.some.inj hsome
      -- the environment is the fourth word, if there is one
      by_cases henv : t.env = .unknown
      · have hwords : t.words.drop 2 = [t.os.name] := by simp [words, henv]
        rw [hwords]
        dsimp only
        rw [Arch.ofName_name, OS.ofName_name, ← henv]
      · have hwords : t.words.drop 2 = [t.os.name, t.env.name] := by simp [words, henv]
        rw [hwords]
        dsimp only
        rw [Arch.ofName_name, OS.ofName_name, Environment.ofName_name h.env]

theorem parse_render (h : t.IsRead) : parse t.render = .ok t.reread := by
  have hne : t.render ≠ "" := by
    unfold render
    cases t.arch <;> simp [Arch.name]
  rw [parse]
  simp only [trim_render, if_neg hne, components_render h]
  exact congrArg Except.ok (ofComponents_words h)

/-! ## Reading back -/

theorem reread_eq_iff : t.reread = t ↔ ¬ t.VendorMistaken := by
  unfold reread
  split
  next hmistaken =>
    -- the operating system has become another one
    refine iff_of_false (fun hsame => hmistaken.2.2 ?_) (not_not_intro hmistaken)
    exact (congrArg os hsame).trans hmistaken.1
  next hkept => exact iff_of_true rfl hkept

theorem IsRead.reread (h : t.IsRead) : t.reread.IsRead := by
  unfold Triple.reread
  split
  · refine ⟨?_, ?_, h.env⟩
    · show '-' ∉ "unknown".toList
      decide
    · show "unknown" ≠ ""
      decide
  · exact h

/-- A canonical name tells the operating system. -/
theorem os_eq_of_render_eq {u : Triple} (ht : t.IsRead) (hu : u.IsRead)
    (h : t.render = u.render) : t.os = u.os := by
  have hwords : t.words = u.words := by rw [← components_render ht, h, components_render hu]
  have hname : t.os.name = u.os.name := Option.some.inj (congrArg (·[2]?) hwords)
  rw [← OS.ofName_name t.os, hname, OS.ofName_name]

theorem render_reread_eq_iff (h : t.IsRead) : t.reread.render = t.render ↔ ¬ t.VendorMistaken := by
  constructor
  · intro hsame hmistaken
    have hos : t.reread.os = t.os := os_eq_of_render_eq h.reread h hsame
    rw [Triple.reread, if_pos hmistaken, hmistaken.1] at hos
    exact hmistaken.2.2 hos
  · intro hkept
    rw [reread_eq_iff.mpr hkept]

/-- The canonical name of a platform that was read can be read. That gives the platform back, and
with it the same canonical name, exactly when the vendor is not mistaken; a mistaken vendor is read
as the operating system. -/
theorem canonical_name_reread_iff (h : parse s = .ok t) :
    ∃ again, parse t.render = .ok again ∧ (again = t ↔ ¬ t.VendorMistaken) ∧
      (again.render = t.render ↔ ¬ t.VendorMistaken) ∧
      (t.VendorMistaken → again = { t with vendor := "unknown", os := OS.ofName t.vendor }) := by
  have hread := isRead_of_parse h
  refine ⟨t.reread, parse_render hread, reread_eq_iff, render_reread_eq_iff hread, ?_⟩
  exact fun hmistaken => if_pos hmistaken

/-- A vendor whose word names an operating system is kept where the operating system is known. -/
theorem linux_vendor_kept :
    parse "x86_64-linux-darwin13.1.0" = .ok ⟨.x86_64, "linux", .darwin, .unknown⟩ ∧
      parse (render ⟨.x86_64, "linux", .darwin, .unknown⟩) =
        .ok ⟨.x86_64, "linux", .darwin, .unknown⟩ := by
  have hparse : parse "x86_64-linux-darwin13.1.0" = .ok ⟨.x86_64, "linux", .darwin, .unknown⟩ := by
    rfl
  obtain ⟨again, hagain, hsame, -⟩ := canonical_name_reread_iff hparse
  rw [hsame.mpr (by decide)] at hagain
  exact ⟨hparse, hagain⟩

/-- A platform with the vendor `linux` and nothing known behind it. Its canonical name is read as
the operating system `linux` without a vendor. -/
theorem linux_vendor_mistaken :
    parse "x86_64-linux-foo-bar" = .ok ⟨.x86_64, "linux", .unknown, .unknown⟩ ∧
      render ⟨.x86_64, "linux", .unknown, .unknown⟩ = "x86_64-linux-unknown" ∧
      parse "x86_64-linux-unknown" = .ok ⟨.x86_64, "unknown", .linux, .unknown⟩ ∧
      render ⟨.x86_64, "unknown", .linux, .unknown⟩ = "x86_64-unknown-linux" := by
  exact ⟨rfl, rfl, rfl, rfl⟩

end CodeEmission.Triple

import CodeEmission.Platform.Triple
import Mathlib.Data.List.Basic

/-!
# Words for Operating Systems

An operating system is named by its name or an alias, and a version may stand behind either. No such
word names two systems, so it does not matter in which order the table of names is searched. There
is one place where a word that names nothing is taken for a name all the same: behind `macos`
anything is accepted, not only a version.

* `OS.Denotes`: the words that name an operating system.
* `OS.Denotes.unique`: no word names two.
* `OS.recognised_ofNameIn`: a search in any order finds what a word names, unless the word is
  mistaken for `macos` with a version.
* `OS.words_recognised_iff`: exactly the words that are not mistaken are recognised by the grammar.

The word `macosfoo` is mistaken (`OS.unversioned_macos_mistaken`).
-/

namespace CodeEmission.OS

variable {word : List Char} {os : OS} {order : List OS}

/-- The operating system that a word names, where the table of names is searched in some order. -/
def ofNameIn (order : List OS) (word : String) : OS :=
  let chars := (Text.lower word).toList
  if chars = "windows".toList then win32
  else if "macos".toList.isPrefixOf chars && !"macosx".toList.isPrefixOf chars then macosx
  else (order.find? fun os => isVersioned os.name.toList chars).getD unknown

theorem ofNameIn_known (word : String) : ofNameIn known word = ofName word := rfl

/-! ## The grammar -/

/-- The names of an operating system that a version may follow. -/
def names : OS → List String
  | unknown => []
  | macosx => ["macosx", "macos"]
  | os => [os.name]

/-- The words, in lower case, that name an operating system. -/
inductive Denotes : List Char → OS → Prop where
  | versioned {os : OS} {base : String} {version : List Char} (hbase : base ∈ os.names)
      (hversion : ∀ c ∈ version, isVersionChar c = true) : Denotes (base.toList ++ version) os
  | windows : Denotes "windows".toList win32

/-- An operating system is recognised in a word that names it, and an unknown one in a word that
names none. -/
def Recognised (word : List Char) (os : OS) : Prop :=
  Denotes word os ∨ os = unknown ∧ ∀ other, ¬ Denotes word other

/-- A word that goes on after `macos` with something that is no version. -/
def MacosMistaken (word : List Char) : Prop :=
  "macos".toList <+: word ∧ ¬ "macosx".toList <+: word ∧
    ¬ isVersioned "macos".toList word = true

/-- Whether a word is mistaken can be computed. -/
instance (word : List Char) : Decidable (MacosMistaken word) :=
  inferInstanceAs (Decidable (_ ∧ _ ∧ _))

/-! ## Names and versions -/

theorem isVersioned_iff {base word : List Char} :
    isVersioned base word = true ↔
      ∃ version, word = base ++ version ∧ ∀ c ∈ version, isVersionChar c = true := by
  simp only [isVersioned, Bool.and_eq_true, List.isPrefixOf_iff_prefix, List.all_eq_true]
  constructor
  · rintro ⟨⟨version, rfl⟩, hversion⟩
    exact ⟨version, rfl, by simpa using hversion⟩
  · rintro ⟨version, rfl, hversion⟩
    exact ⟨List.prefix_append base version, by simpa using hversion⟩

theorem mem_known_of_mem_names {base : String} (h : base ∈ os.names) : os ∈ known := by
  cases os with
  | unknown => cases h
  | _ => decide

theorem name_mem_names (h : os ∈ known) : os.name ∈ os.names := by
  cases os with
  | unknown => exact absurd h (by decide)
  | _ => decide

/-- There is one name that is not that of the table. -/
theorem eq_name_or_macos {base : String} (h : base ∈ os.names) :
    base = os.name ∨ base = "macos" := by
  cases os <;> simp_all [names, name]

/-- A name with a version behind it is no other name. -/
theorem eq_of_isVersioned_name {a b : OS} {base base' : String} (ha : base ∈ a.names)
    (hb : base' ∈ b.names) (h : isVersioned base.toList base'.toList = true) : a = b := by
  -- the table is finite, so every two of its names are compared
  have htable : ∀ a ∈ known, ∀ b ∈ known, ∀ base ∈ a.names, ∀ base' ∈ b.names,
      isVersioned base.toList base'.toList = true → a = b := by decide +kernel
  exact htable a (mem_known_of_mem_names ha) b (mem_known_of_mem_names hb) base ha base' hb h

theorem not_isVersioned_windows {base : String} (h : base ∈ os.names) :
    ¬ isVersioned base.toList "windows".toList = true := by
  have htable : ∀ os ∈ known, ∀ base ∈ os.names,
      ¬ isVersioned base.toList "windows".toList = true := by decide +kernel
  exact htable os (mem_known_of_mem_names h) base h

/-- The names that a word with `macos` in front can start with. -/
theorem eq_macos_of_start {base : String} (h : base ∈ os.names)
    (hstart : "macos".toList <+: base.toList ∨ base.toList <+: "macos".toList) :
    os = macosx ∧ (base = "macosx" ∨ base = "macos") := by
  have htable : ∀ os ∈ known, ∀ base ∈ os.names,
      "macos".toList <+: base.toList ∨ base.toList <+: "macos".toList →
        os = macosx ∧ (base = "macosx" ∨ base = "macos") := by decide +kernel
  exact htable os (mem_known_of_mem_names h) base h hstart

/-- No word names two operating systems. -/
theorem Denotes.unique {a b : OS} (ha : Denotes word a) (hb : Denotes word b) : a = b := by
  cases ha with
  | windows =>
    generalize hword : "windows".toList = word at hb
    cases hb with
    | windows => rfl
    | versioned hbase hversion =>
      exact absurd (isVersioned_iff.mpr ⟨_, hword, hversion⟩) (not_isVersioned_windows hbase)
  | @versioned _ base version hbase hversion =>
    generalize hword : base.toList ++ version = word at hb
    cases hb with
    | windows =>
      exact absurd (isVersioned_iff.mpr ⟨_, hword.symm, hversion⟩) (not_isVersioned_windows hbase)
    | @versioned _ base' version' hbase' hversion' =>
      -- one of the two names goes on with characters of the other one's version
      rcases List.append_eq_append_iff.mp hword with ⟨more, hmore, rfl⟩ | ⟨more, hmore, rfl⟩
      · refine eq_of_isVersioned_name hbase hbase' (isVersioned_iff.mpr ⟨more, hmore, ?_⟩)
        exact fun c hc => hversion c (List.mem_append_left _ hc)
      · refine (eq_of_isVersioned_name hbase' hbase (isVersioned_iff.mpr ⟨more, hmore, ?_⟩)).symm
        exact fun c hc => hversion' c (List.mem_append_left _ hc)

theorem Recognised.unique {a b : OS} (ha : Recognised word a) (hb : Recognised word b) : a = b := by
  rcases ha with ha | ⟨rfl, hnone⟩
  · rcases hb with hb | ⟨-, hnone⟩
    · exact ha.unique hb
    · exact absurd ha (hnone a)
  · rcases hb with hb | ⟨rfl, -⟩
    · exact absurd hb (hnone b)
    · rfl

/-! ## Words with `macos` in front -/

/-- A word that starts with `macos` and not with `macosx` names at most what `macos` and a version
name. -/
theorem Denotes.isVersioned_macos (h : Denotes word os) (hmacos : "macos".toList <+: word)
    (hmacosx : ¬ "macosx".toList <+: word) : isVersioned "macos".toList word = true := by
  cases h with
  | windows => exact absurd hmacos (by decide)
  | @versioned _ base version hbase hversion =>
    have hstart := List.prefix_or_prefix_of_prefix hmacos (List.prefix_append base.toList version)
    rcases (eq_macos_of_start hbase hstart).2 with rfl | rfl
    · exact absurd (List.prefix_append _ _) hmacosx
    · exact isVersioned_iff.mpr ⟨version, rfl, hversion⟩

theorem MacosMistaken.not_denotes (h : MacosMistaken word) (os : OS) : ¬ Denotes word os :=
  fun hdenotes => h.2.2 (hdenotes.isVersioned_macos h.1 h.2.1)

/-- A version does not start with the letter that tells `macosx` from `macos`. -/
theorem not_prefix_macosx {version : List Char} (h : ∀ c ∈ version, isVersionChar c = true) :
    ¬ "macosx".toList <+: "macos".toList ++ version := by
  rintro ⟨more, hmore⟩
  have hrest : "macos".toList ++ 'x' :: more = "macos".toList ++ version := hmore
  have hx : 'x' :: more = version := List.append_cancel_left hrest
  exact absurd (h 'x' (hx ▸ List.mem_cons_self)) (by decide)

/-! ## The search -/

theorem ofNameIn_of_mistaken (order : List OS) {word : String}
    (h : MacosMistaken (Text.lower word).toList) : ofNameIn order word = macosx := by
  have hwindows : (Text.lower word).toList ≠ "windows".toList := by
    intro heq
    have hmacos : "macos".toList <+: (Text.lower word).toList := h.1
    rw [heq] at hmacos
    exact absurd hmacos (by decide)
  simp only [ofNameIn, if_neg hwindows, List.isPrefixOf_iff_prefix.mpr h.1,
    Bool.eq_false_iff.mpr (mt List.isPrefixOf_iff_prefix.mp h.2.1), Bool.not_false, Bool.and_self,
    if_true]

/-- Where neither of the two special words stands, the table tells what a word names. -/
theorem recognised_search (horder : order.Perm known) (hwindows : word ≠ "windows".toList)
    (hmacos : ¬ ("macos".toList <+: word ∧ ¬ "macosx".toList <+: word)) :
    Recognised word ((order.find? fun os => isVersioned os.name.toList word).getD unknown) := by
  cases hfind : order.find? fun os => isVersioned os.name.toList word with
  | some os =>
    have hknown : os ∈ known := horder.mem_iff.mp (List.mem_of_find?_eq_some hfind)
    have hversioned : isVersioned os.name.toList word = true := by
      simpa using List.find?_some hfind
    obtain ⟨version, rfl, hversion⟩ := isVersioned_iff.mp hversioned
    exact .inl (.versioned (name_mem_names hknown) hversion)
  | none =>
    -- whatever the word named would be in the table, and would have been found
    have hnone := List.find?_eq_none.mp hfind
    refine .inr ⟨rfl, fun other hother => ?_⟩
    cases hother with
    | windows => exact hwindows rfl
    | @versioned _ base version hbase hversion =>
      have hmem : other ∈ order := horder.mem_iff.mpr (mem_known_of_mem_names hbase)
      rcases eq_name_or_macos hbase with rfl | rfl
      · exact hnone other hmem (isVersioned_iff.mpr ⟨version, rfl, hversion⟩)
      · exact hmacos ⟨List.prefix_append _ _, not_prefix_macosx hversion⟩

/-- A search of the table, in whatever order, finds what a word names. -/
theorem recognised_ofNameIn (horder : order.Perm known) {word : String}
    (h : ¬ MacosMistaken (Text.lower word).toList) :
    Recognised (Text.lower word).toList (ofNameIn order word) := by
  unfold ofNameIn
  generalize (Text.lower word).toList = chars at h ⊢
  dsimp only
  split
  next hwindows => exact .inl (hwindows ▸ .windows)
  next hwindows =>
    simp only [Bool.and_eq_true, Bool.not_eq_true', Bool.eq_false_iff, ne_eq,
      List.isPrefixOf_iff_prefix]
    split
    next hmacos =>
      -- the word is not mistaken, so what stands behind `macos` is a version
      have hversioned : isVersioned "macos".toList chars = true :=
        not_not.mp fun hversion => h ⟨hmacos.1, hmacos.2, hversion⟩
      obtain ⟨version, rfl, hversion⟩ := isVersioned_iff.mp hversioned
      exact .inl (.versioned (by decide) hversion)
    next hmacos => exact recognised_search horder hwindows hmacos

/-- In whatever order the table of names is searched, the same is found for a word. That is what the
grammar says, for known and for unknown systems, exactly when the word is not mistaken; a mistaken
word is taken for `macosx` and names nothing. -/
theorem words_recognised_iff (horder : order.Perm known) (word : String) :
    ofNameIn order word = ofName word ∧
      ((∀ os, ofName word = os ↔ Recognised (Text.lower word).toList os) ↔
        ¬ MacosMistaken (Text.lower word).toList) ∧
      (MacosMistaken (Text.lower word).toList →
        ofName word = macosx ∧ ∀ os, ¬ Denotes (Text.lower word).toList os) := by
  rw [← ofNameIn_known]
  by_cases hmistaken : MacosMistaken (Text.lower word).toList
  · -- the alias is tried before the table, so the order does not matter here either
    have hfound (order : List OS) := ofNameIn_of_mistaken order hmistaken
    refine ⟨by rw [hfound, hfound], iff_of_false (fun hall => ?_) (not_not_intro hmistaken),
      fun _ => ⟨hfound known, hmistaken.not_denotes⟩⟩
    rcases (hall macosx).mp (hfound known) with hdenotes | ⟨hunknown, -⟩
    · exact hmistaken.not_denotes macosx hdenotes
    · cases hunknown
  · have hknown := recognised_ofNameIn (.refl known) hmistaken
    refine ⟨(recognised_ofNameIn horder hmistaken).unique hknown,
      iff_of_true (fun os => ⟨fun h => h ▸ hknown, hknown.unique⟩) hmistaken,
      fun h => absurd h hmistaken⟩

/-- The alias and its version are recognised in any case, also when the table is searched from its
end. -/
theorem versioned_macos_recognised :
    known.reverse.Perm known ∧ ofNameIn known.reverse "MacOS14_2.1" = macosx ∧
      ∀ os, ofName "MacOS14_2.1" = os ↔ Recognised "macos14_2.1".toList os := by
  have hlower : Text.lower "MacOS14_2.1" = "macos14_2.1" := by decide +kernel
  have hplain : ¬ MacosMistaken "macos14_2.1".toList := by decide +kernel
  obtain ⟨hsame, hiff, -⟩ := words_recognised_iff known.reverse_perm "MacOS14_2.1"
  rw [hlower] at hiff
  have hfound : ofName "MacOS14_2.1" = macosx := by decide +kernel
  exact ⟨known.reverse_perm, hsame.trans hfound, hiff.mpr hplain⟩

/-- A word that is no name with a version, for `foo` is no version. It is taken for `macosx`. -/
theorem unversioned_macos_mistaken :
    ofName "macosfoo" = macosx ∧ Text.lower "macosfoo" = "macosfoo" ∧
      ∀ os, ¬ Denotes "macosfoo".toList os := by
  have hmistaken : MacosMistaken "macosfoo".toList := by decide +kernel
  exact ⟨by decide +kernel, by decide +kernel, hmistaken.not_denotes⟩

end CodeEmission.OS

import CodeEmission.Platform.Pattern
import CodeEmission.Proofs.Text.Words

/-!
# What Patterns Stand For

A pattern can be spelled in many ways: names have aliases and any case, versions are dropped, and a
wildcard may be written or left out. The canonical form forgets the spelling and nothing else.

* `Pattern.parse_eq_ok_iff`: which texts are patterns, and what is read off them.
* `Pattern.parse_canonical`: a canonical form is read as the pattern it was made from.
* `Pattern.sameParts_of_matches`: patterns that match the same platforms have the same parts.
* `Pattern.canonical_eq_iff_matches`: so two patterns that can be read have one canonical form
  exactly when they match the same platforms.
-/

namespace CodeEmission

/-! ## Names -/

theorem Arch.ofName_name (a : Arch) : Arch.ofName a.name = a := by
  cases a <;> decide

theorem OS.ofName_name (os : OS) : OS.ofName os.name = os := by
  cases os <;> decide

theorem Environment.ofName_name {env : Environment} (h : env ≠ .unassigned) :
    Environment.ofName env.name = env := by
  cases env with
  | unassigned => exact absurd rfl h
  | _ => decide

/-! Names are words: they have no separator in them, and no blank stands at their ends. -/

theorem Arch.dash_not_mem_name (a : Arch) : '-' ∉ a.name.toList := by
  cases a <;> decide

theorem OS.dash_not_mem_name (os : OS) : '-' ∉ os.name.toList := by
  cases os <;> decide

theorem Environment.dash_not_mem_name (env : Environment) : '-' ∉ env.name.toList := by
  cases env <;> decide

theorem Arch.head_name (a : Arch) :
    ∃ c, a.name.toList.head? = some c ∧ Text.isBlank c = false := by
  cases a <;> exact ⟨_, rfl, rfl⟩

theorem Environment.getLast_name (env : Environment) :
    ∃ c, env.name.toList.getLast? = some c ∧ Text.isBlank c = false := by
  cases env <;> exact ⟨_, rfl, rfl⟩

theorem Environment.ofName_ne_unassigned (word : String) : ofName word ≠ .unassigned := by
  unfold ofName
  split <;> exact nofun

namespace Pattern

variable {p q : Pattern} {s : String}

/-- How a word of a pattern says what is allowed: a word that is left out allows anything, and a
word that stands must name something. -/
inductive Says {β : Type} (ofName : String → β) (any : β) : Option String → β → Prop where
  | anything : Says ofName any none any
  | named {word : String} (hname : ofName word ≠ any) : Says ofName any (some word) (ofName word)

theorem says_none_iff {β : Type} {ofName : String → β} {any b : β} :
    Says ofName any none b ↔ b = any :=
  ⟨fun | .anything => rfl, fun h => h ▸ .anything⟩

theorem says_some_iff {β : Type} {ofName : String → β} {any b : β} {word : String} :
    Says ofName any (some word) b ↔ ofName word = b ∧ b ≠ any :=
  ⟨fun | .named hname => ⟨rfl, hname⟩, fun ⟨h, hb⟩ => h ▸ .named (h ▸ hb)⟩

/-- The texts that are patterns, and what is read off them. -/
theorem parse_eq_ok_iff :
    parse s = .ok p ↔ (Triple.components (Text.trim s)).length ≤ 4 ∧
      Arch.ofName ((Triple.components (Text.trim s))[0]?.getD "") = p.arch ∧ p.arch ≠ .unknown ∧
      (given? (Triple.components (Text.trim s)) 1).getD "" = p.vendor ∧
      Says OS.ofName .unknown (given? (Triple.components (Text.trim s)) 2) p.os ∧
      Says Environment.ofName .unknown (given? (Triple.components (Text.trim s)) 3) p.env ∧
      p.text = s := by
  obtain ⟨arch, vendor, os, env, text⟩ := p
  unfold parse
  generalize Triple.components (Text.trim s) = parts
  generalize hname : parts[0]?.getD "" = name
  simp only [hname, throw, throwThe, MonadExceptOf.throw, bind, Except.bind, pure, Except.pure]
  by_cases hlength : 4 < parts.length
  · simp only [hlength, if_true, reduceCtorEq, false_iff]
    exact fun h => absurd h.1 (Nat.not_le.mpr hlength)
  by_cases harch : Arch.ofName name = .unknown
  · simp only [hlength, harch, if_true, if_false, reduceCtorEq, false_iff]
    rintro ⟨-, rfl, hknown, -⟩
    exact hknown rfl
  · -- each of the two words is left out, names nothing or names something
    simp only [hlength, harch, if_false]
    rcases given? parts 2 with - | word <;> rcases given? parts 3 with - | word' <;>
      simp only [says_none_iff, says_some_iff] <;> grind

/-- What is true of every pattern that was read. -/
structure IsRead (p : Pattern) : Prop where
  /-- The architecture is a known one. -/
  arch : p.arch ≠ .unknown
  /-- The vendor is one word. -/
  vendor_dash : '-' ∉ p.vendor.toList
  /-- The vendor is no wildcard; any vendor is meant by the empty text. -/
  vendor_star : p.vendor ≠ "*"
  /-- The environment has a name, or any is meant. -/
  env : p.env ≠ .unassigned

/-- A word that constrains something has no separator in it and is no wildcard. -/
theorem given?_components {i : Nat} {word : String}
    (h : given? (Triple.components s) i = some word) : '-' ∉ word.toList ∧ word ≠ "*" := by
  unfold given? at h
  split at h
  next => cases h
  next hstar =>
    obtain ⟨part, hpart, rfl⟩ := List.mem_map.mp (List.mem_of_getElem? h)
    exact ⟨by simpa using Text.not_mem_of_mem_splitOn hpart, fun heq => hstar (heq ▸ h)⟩

theorem isRead_of_parse (h : parse s = .ok p) : p.IsRead ∧ p.text = s := by
  obtain ⟨-, -, harch, hvendor, -, henv, htext⟩ := parse_eq_ok_iff.mp h
  have hwords : ∀ i word, given? (Triple.components (Text.trim s)) i = some word →
      '-' ∉ word.toList ∧ word ≠ "*" := fun _ _ => given?_components
  generalize Triple.components (Text.trim s) = parts at hvendor henv hwords
  have hword : '-' ∉ p.vendor.toList ∧ p.vendor ≠ "*" := by
    rw [← hvendor]
    cases hword : given? parts 1 with
    | none => simp
    | some word => exact hwords 1 word hword
  refine ⟨⟨harch, hword.1, hword.2, ?_⟩, htext⟩
  cases hword : given? parts 3 with
  | none =>
    rw [hword, says_none_iff] at henv
    exact henv ▸ nofun
  | some word =>
    rw [hword, says_some_iff] at henv
    exact henv.1 ▸ Environment.ofName_ne_unassigned word

/-! ## Canonical forms -/

/-- The word of a canonical form that stands for a part: the part's name, or a wildcard. -/
def wordOr (isAny : Prop) [Decidable isAny] (name : String) : String :=
  if isAny then "*" else name

/-- The words of a canonical form. -/
def words (p : Pattern) : List String :=
  [p.arch.name, wordOr (p.vendor = "") p.vendor, wordOr (p.os = .unknown) p.os.name,
    wordOr (p.env = .unknown) p.env.name]

theorem canonical_eq_intercalate (p : Pattern) : p.canonical = String.intercalate "-" p.words :=
  rfl

/-- The words of the canonical form of a pattern that was read stand apart. -/
theorem components_canonical (h : p.IsRead) : Triple.components p.canonical = p.words := by
  have hword {isAny : Prop} [Decidable isAny] {name : String} (hname : '-' ∉ name.toList) :
      '-' ∉ (wordOr isAny name).toList := by
    unfold wordOr
    split
    · decide
    · exact hname
  -- no name has a separator in it, and a vendor is one word
  have hdash : ∀ word ∈ p.words, '-' ∉ word.toList := by
    simp only [words, List.forall_mem_cons]
    exact ⟨p.arch.dash_not_mem_name, hword h.vendor_dash, hword p.os.dash_not_mem_name,
      hword p.env.dash_not_mem_name, nofun⟩
  rw [canonical_eq_intercalate, Triple.components]
  exact Text.splitOn_intercalate rfl (List.cons_ne_nil _ _) hdash

theorem trim_canonical (p : Pattern) : Text.trim p.canonical = p.canonical := by
  have hchars : p.canonical.toList = p.arch.name.toList ++
      ("-" ++ wordOr (p.vendor = "") p.vendor ++ "-" ++ wordOr (p.os = .unknown) p.os.name ++
        "-").toList ++ (wordOr (p.env = .unknown) p.env.name).toList := by
    simp [canonical, wordOr]
  refine Text.trim_of_ends hchars p.arch.head_name ?_
  unfold wordOr
  split
  · exact ⟨_, rfl, rfl⟩
  · exact p.env.getLast_name

theorem given?_of_ne {parts : List String} {i : Nat} {word : String} (hi : parts[i]? = some word)
    (hword : word ≠ "*") : given? parts i = some word := by
  unfold given?
  rw [hi]
  split
  next hstar => exact absurd (Option.some.inj hstar) hword
  next => rfl

/-- A word of a canonical form is read as the part that it stands for. -/
theorem says_wordOr {β : Type} [DecidableEq β] {ofName : String → β} (name : β → String)
    {any b : β} {parts : List String} {i : Nat} (hi : parts[i]? = some (wordOr (b = any) (name b)))
    (hname : b ≠ any → ofName (name b) = b) (hstar : name b ≠ "*") :
    Says ofName any (given? parts i) b := by
  by_cases hb : b = any
  · rw [wordOr, if_pos hb] at hi
    rw [given?, hi]
    exact hb ▸ .anything
  · rw [wordOr, if_neg hb] at hi
    rw [given?_of_ne hi hstar, says_some_iff]
    exact ⟨hname hb, hb⟩

/-- The canonical form of a pattern that was read is read as the same pattern. -/
theorem parse_canonical (h : p.IsRead) :
    parse p.canonical = .ok { p with text := p.canonical } := by
  rw [parse_eq_ok_iff, trim_canonical, components_canonical h]
  refine ⟨by simp [words], Arch.ofName_name p.arch, h.arch, ?_, ?_, ?_, rfl⟩
  · -- vendors are not names of something, so the word itself is read
    by_cases hvendor : p.vendor = ""
    · have hword : p.words[1]? = some "*" := by simp [words, wordOr, hvendor]
      rw [given?, hword]
      exact hvendor.symm
    · have hword : p.words[1]? = some p.vendor := by simp [words, wordOr, hvendor]
      rw [given?_of_ne hword h.vendor_star]
      rfl
  · exact says_wordOr OS.name rfl (fun _ => OS.ofName_name p.os) (by cases p.os <;> decide)
  · exact says_wordOr Environment.name rfl
      (fun _ => Environment.ofName_name h.env) (by cases p.env <;> decide)

/-! ## Platforms that match -/

/-- Two patterns have the same parts; their texts may differ. -/
structure SameParts (p q : Pattern) : Prop where
  arch : p.arch = q.arch
  vendor : p.vendor = q.vendor
  os : p.os = q.os
  env : p.env = q.env

theorem canonical_eq_iff (hp : p.IsRead) (hq : q.IsRead) :
    p.canonical = q.canonical ↔ p.SameParts q := by
  constructor
  · intro h
    have hread := (parse_canonical hp).symm.trans (h ▸ parse_canonical hq)
    rw [Except.ok.injEq, Pattern.mk.injEq] at hread
    exact ⟨hread.1, hread.2.1, hread.2.2.1, hread.2.2.2.1⟩
  · rintro ⟨harch, hvendor, hos, henv⟩
    simp only [canonical, harch, hvendor, hos, henv]

/-- What the operating system of a pattern allows. -/
theorem allowsOS_iff (p : Pattern) (t : Triple) :
    p.allowsOS t = true ↔ p.os = .unknown ∨ p.os = t.os ∨
      p.os = .darwin ∧ (t.os = .macosx ∨ t.os = .ios) := by
  unfold allowsOS
  split
  next hos => simp [hos]
  next hos => simp [hos, Triple.isDarwin, or_assoc, eq_comm (a := OS.darwin) (b := t.os)]
  next hunknown hdarwin =>
    rw [decide_eq_true_eq]
    exact ⟨fun h => .inr (.inl h), fun h => by grind⟩

theorem matchesTriple_iff (p : Pattern) (t : Triple) :
    p.matchesTriple t = true ↔ p.arch = t.arch ∧ (p.vendor = "" ∨ p.vendor = t.vendor) ∧
      (p.os = .unknown ∨ p.os = t.os ∨ p.os = .darwin ∧ (t.os = .macosx ∨ t.os = .ios)) ∧
      (p.env = .unknown ∨ p.env = t.env) := by
  simp [matchesTriple, allowsOS_iff, and_assoc]

/-- A part that allows itself alone, or anything, is known from what it allows. -/
theorem eq_of_allows {β : Type} {any a b c d : β} (hcd : c ≠ d)
    (h : ∀ x, (a = any ∨ a = x) ↔ (b = any ∨ b = x)) : a = b := by
  -- nothing but `any` allows both `c` and `d`
  have hany {x : β} (hc : x = any ∨ x = c) (hd : x = any ∨ x = d) : x = any := by
    rcases hc with hc | rfl
    · exact hc
    · exact hd.resolve_right hcd
  by_cases ha : a = any
  · exact ha.trans (hany ((h c).mp (.inl ha)) ((h d).mp (.inl ha))).symm
  · rcases (h a).mp (.inr rfl) with hb | hb
    · exact absurd (hany ((h c).mpr (.inl hb)) ((h d).mpr (.inl hb))) ha
    · exact hb.symm

/-- An operating system, too, is known from what it allows, for all that the Darwin family is. -/
theorem eq_of_allowsOS {a b : OS}
    (h : ∀ x, (a = .unknown ∨ a = x ∨ a = .darwin ∧ (x = .macosx ∨ x = .ios)) ↔
      (b = .unknown ∨ b = x ∨ b = .darwin ∧ (x = .macosx ∨ x = .ios))) : a = b := by
  have ha := h a
  have hb := h b
  -- only a wildcard allows both of these
  have hlinux := h .linux
  have hnone := h .none
  grind

/-- Patterns that match the same platforms have the same parts. -/
theorem sameParts_of_matches (h : ∀ t, p.matchesTriple t = q.matchesTriple t) : p.SameParts q := by
  have hall (t : Triple) := Bool.eq_iff_iff.mp (h t)
  simp only [matchesTriple_iff] at hall
  -- a pattern matches the platform of its own parts, which can then be varied one by one
  obtain ⟨harch, hvendor, hos, henv⟩ := (hall ⟨p.arch, p.vendor, p.os, p.env⟩).mp
    ⟨rfl, .inr rfl, .inr (.inl rfl), .inr rfl⟩
  refine ⟨harch.symm, ?_, ?_, ?_⟩
  · have hvendors (vendor : String) :
        (p.vendor = "" ∨ p.vendor = vendor) ↔ (q.vendor = "" ∨ q.vendor = vendor) := by
      simpa [harch, hos, henv] using hall ⟨p.arch, vendor, p.os, p.env⟩
    exact eq_of_allows (show "a" ≠ "b" by decide) hvendors
  · refine eq_of_allowsOS fun os => ?_
    simpa [harch, hvendor, henv] using hall ⟨p.arch, p.vendor, os, p.env⟩
  · have henvs (env : Environment) :
        (p.env = .unknown ∨ p.env = env) ↔ (q.env = .unknown ∨ q.env = env) := by
      simpa [harch, hvendor, hos] using hall ⟨p.arch, p.vendor, p.os, env⟩
    exact eq_of_allows (show Environment.gnu ≠ .musl by decide) henvs

theorem SameParts.matchesTriple_eq (h : p.SameParts q) (t : Triple) :
    p.matchesTriple t = q.matchesTriple t := by
  rw [Bool.eq_iff_iff, matchesTriple_iff, matchesTriple_iff, h.arch, h.vendor, h.os, h.env]

/-- Two patterns that were read have one canonical form exactly when they match the same
platforms. -/
theorem canonical_eq_iff_matches (hp : p.IsRead) (hq : q.IsRead) :
    p.canonical = q.canonical ↔ ∀ t, p.matchesTriple t = q.matchesTriple t :=
  (canonical_eq_iff hp hq).trans ⟨SameParts.matchesTriple_eq, sameParts_of_matches⟩

end Pattern

end CodeEmission

import CodeEmission.Proofs.Command.Layers

/-!
# Keys of the Configuration File

The reader of a configuration file stores the value of a key in any spelling, and refuses a file only
for keys that it knows in no spelling. A setting is taken from the file when the key stands there in
the one spelling that is asked for. `ConfigValues.stored` is what the reader stored, and
`ConfigValues.ofTable` what is taken.

* `sectionValue?_eq_stored`: a value is taken exactly when its key is spelled as asked for, and then it
  is the stored one.
* `Settings.follows_of_resolve`: without flags the settings are what is taken, over the defaults.
* `Settings.stored_value_takes_effect_iff`: a stored value takes effect exactly when its key is spelled
  as asked for or it says what holds anyway.

A key in another case is accepted and has no effect (`Settings.capital_key_ignored`).
-/

namespace CodeEmission

namespace Toml.Table

/-- A field that stands in a table is found there. -/
theorem isSome_field?_of_mem {t : Table} {name : String} {e : String × Node} (he : e ∈ t)
    (hname : Text.sameName name e.1 = true) : (t.field? name).isSome = true := by
  rw [field?, Option.isSome_map, List.find?_isSome]
  exact ⟨e, List.mem_reverse.mpr he, hname⟩

/-- A key that a table has in the exact spelling is one of its entries. -/
theorem mem_of_get? {t : Table} {name : String} {v : Node} (h : t.get? name = some v) :
    (name, v) ∈ t := by
  obtain ⟨⟨key, w⟩, hfind, rfl⟩ := Option.map_eq_some_iff.mp h
  obtain rfl : key = name := by simpa using List.find?_some hfind
  exact List.mem_of_find?_eq_some hfind

/-- What stands in a section under its exact name is an entry of the section. -/
theorem mem_sub_of_get? {t entries : Table} {group : String} {e : String × Node}
    (hgroup : Text.sameName group group = true) (h : t.get? group = some (.table entries))
    (he : e ∈ entries) : e ∈ t.sub group :=
  List.mem_flatMap.mpr ⟨(group, .table entries), mem_of_get? h, by simpa [hgroup] using he⟩

/-- A key of a section that is defined in this spelling is stored. -/
theorem isSome_field?_of_isDefined {t : Table} {group key : String}
    (hgroup : Text.sameName group group = true) (hkey : Text.sameName key key = true)
    (h : t.isDefined [group, key] = true) : ((t.sub group).field? key).isSome = true := by
  unfold isDefined at h
  split at h
  next entries hentries =>
    obtain ⟨v, hv⟩ := Option.isSome_iff_exists.mp h
    exact isSome_field?_of_mem (mem_sub_of_get? hgroup hentries (mem_of_get? hv)) hkey
  next => cases h

end Toml.Table

namespace Command

/-- What the reader stores for a key of a section, in whatever spelling it stands there. -/
def storedValue? {α : Type} (get : Toml.Table → String → α) (root : Toml.Table)
    (group key : String) : Option α :=
  ((root.sub group).field? key).map fun _ => get (root.sub group) key

/-- What the reader stores of a document. -/
def ConfigValues.stored (root : Toml.Table) : ConfigValues :=
  { triple? := storedValue? Toml.Table.text root "target" "triple"
    dialect? := storedValue? Toml.Table.text root "asm" "syntax"
    markDataRegions? := storedValue? Toml.Table.boolean root "asm" "mark_data_regions"
    fileKind? := storedValue? Toml.Table.text root "emit" "filetype"
    verify? := storedValue? Toml.Table.boolean root "emit" "verify"
    jobs? := storedValue? Toml.Table.integer root "emit" "jobs" }

/-- A value is taken from a document when its key is spelled as asked for, and then it is the one that
is stored. -/
theorem sectionValue?_eq_stored {α : Type} (get : Toml.Table → String → α) (root : Toml.Table)
    {group key : String} (hgroup : Text.sameName group group = true)
    (hkey : Text.sameName key key = true) :
    sectionValue? get root group key =
      if root.isDefined [group, key] then storedValue? get root group key else none := by
  unfold sectionValue?
  split
  next hdefined =>
    obtain ⟨v, hv⟩ := Option.isSome_iff_exists.mp
      (Toml.Table.isSome_field?_of_isDefined hgroup hkey hdefined)
    rw [storedValue?, hv, Option.map_some]
  next => rfl

namespace Setting

/-- The section and the key under which a file gives the setting. -/
def path : Setting → Toml.KeyPath
  | triple => ["target", "triple"]
  | dialect => ["asm", "syntax"]
  | dataRegions => ["asm", "mark_data_regions"]
  | fileKind => ["emit", "filetype"]
  | verify => ["emit", "verify"]
  | jobs => ["emit", "jobs"]

/-- The value for the setting alone. -/
def only : Setting → ConfigValues → ConfigValues
  | triple, values => { triple? := values.triple? }
  | dialect, values => { dialect? := values.dialect? }
  | dataRegions, values => { markDataRegions? := values.markDataRegions? }
  | fileKind, values => { fileKind? := values.fileKind? }
  | verify, values => { verify? := values.verify? }
  | jobs, values => { jobs? := values.jobs? }

/-- There is a value for the setting. -/
def IsGiven (s : Setting) (values : ConfigValues) : Prop :=
  s.only values ≠ {}

/-- The setting is what the value for it says, once that is read. -/
def Follows : Setting → ConfigValues → Settings → Prop
  | triple, values, x => ∀ value ∈ values.triple?, x.triple = Text.trim value
  | dialect, values, x =>
    ∀ value ∈ values.dialect?, Dialect.parse value = .ok x.conventions.dialect
  | dataRegions, values, x => ∀ value ∈ values.markDataRegions?, x.conventions.markDataRegions = value
  | fileKind, values, x =>
    ∀ value ∈ values.fileKind?, FileKind.ofFlag? value = some x.options.fileKind
  | verify, values, x => ∀ value ∈ values.verify?, x.options.verify = value
  | jobs, values, x => ∀ value ∈ values.jobs?, x.jobs = value

/-- The setting is the same in two records. -/
def Agrees : Setting → Settings → Settings → Prop
  | triple, x, y => x.triple = y.triple
  | dialect, x, y => x.conventions.dialect = y.conventions.dialect
  | dataRegions, x, y => x.conventions.markDataRegions = y.conventions.markDataRegions
  | fileKind, x, y => x.options.fileKind = y.options.fileKind
  | verify, x, y => x.options.verify = y.options.verify
  | jobs, x, y => x.jobs = y.jobs

variable {s : Setting} {values values' : ConfigValues} {x y : Settings}

/-- Only the value for the setting matters. -/
theorem follows_congr (h : s.only values = s.only values') :
    s.Follows values x ↔ s.Follows values' x := by
  cases s <;> simp_all [only, Follows]

theorem Agrees.follows_iff (h : s.Agrees x y) : s.Follows values x ↔ s.Follows values y := by
  cases s <;> simp_all [Agrees, Follows]

/-- Of what is stored for a setting, that is taken whose key is spelled as asked for. -/
theorem only_ofTable (s : Setting) (root : Toml.Table) :
    s.only (.ofTable root) =
      if root.isDefined s.path then s.only (ConfigValues.stored root) else {} := by
  have htaken (group key : String) (hgroup : Text.sameName group group = true)
      (hkey : Text.sameName key key = true) {α : Type} (get : Toml.Table → String → α) :=
    sectionValue?_eq_stored get root hgroup hkey
  cases s <;>
    simp only [only, path, ConfigValues.ofTable, ConfigValues.stored] <;>
    rw [htaken _ _ (by decide) (by decide)] <;>
    split <;> simp_all

end Setting

/-- Flags that give none of the settings say at most between which stages to run. -/
theorem Overrides.eq_of_not_isFlagged {o : Overrides} (h : ∀ s : Setting, s.isFlagged o = false) :
    o = { startAfter? := o.startAfter?, stopAfter? := o.stopAfter? } := by
  have htriple := h .triple
  have hdialect := h .dialect
  have hregions := h .dataRegions
  have hkind := h .fileKind
  have hverify := h .verify
  have hjobs := h .jobs
  simp only [Setting.isFlagged, Option.isSome_eq_false_iff, Option.isNone_iff_eq_none] at *
  cases o
  simp_all

/-- The dialect that is read is the one that is named, or the usual one. -/
theorem readDialect_eq_ok {given? : Option String} {dialect : Dialect}
    (h : readDialect given? = .ok dialect) :
    (∀ value ∈ given?, Dialect.parse value = .ok dialect) ∧ (given? = none → dialect = .att) := by
  unfold readDialect at h
  split at h
  · cases h
  next hparse =>
    obtain rfl := Except.ok.inj h
    constructor
    · rintro value ⟨⟩
      exact hparse
    · rintro rfl
      have husual : Dialect.parse "" = .ok .att := by decide +kernel
      exact (Except.ok.inj (husual.symm.trans hparse)).symm

/-- The kind of output after a layer is the one that is given, or the one before. -/
theorem kindOver_eq_ok {file? given? : Option String} {before kind : FileKind}
    (h : kindOver file? given? before = .ok kind) :
    (∀ value ∈ given?, FileKind.ofFlag? value = some kind) ∧ (given? = none → kind = before) := by
  cases given? with
  | none => exact ⟨nofun, fun _ => (Except.ok.inj h).symm⟩
  | some value =>
    refine ⟨?_, nofun⟩
    rintro value ⟨⟩
    rw [kindOver, readKind] at h
    split at h
    next kind' hkind => rw [hkind, Except.ok.inj h]
    next => cases h

namespace Settings

variable {processors : Int64} {file : ConfigFile} {o : Overrides} {x : Settings}

/-- Without flags every setting is what the file gives for it, and the default where it gives nothing. -/
theorem follows_of_resolve (hflags : ∀ s : Setting, s.isFlagged o = false)
    (h : resolve processors (some file) o = .ok x) (s : Setting) :
    s.Follows file.values x ∧ (¬ s.IsGiven file.values → s.Agrees x (standard processors)) := by
  obtain ⟨dialect, filed, kind, hdialect, hfiled, hkind, rfl⟩ := resolve_eq_ok h
  rw [Overrides.eq_of_not_isFlagged hflags] at hdialect hkind ⊢
  obtain ⟨hdialect, husual⟩ := readDialect_eq_ok hdialect
  obtain ⟨hfiled, hasm⟩ := kindOver_eq_ok hfiled
  obtain rfl := (kindOver_eq_ok hkind).2 rfl
  simp only [Setting.IsGiven, ne_eq, not_not]
  cases s with
  | triple => simp +contextual [Setting.Follows, Setting.only, Setting.Agrees, layered, standard]
  | dialect => exact ⟨hdialect, fun hnone => husual (congrArg ConfigValues.dialect? hnone)⟩
  | dataRegions => simp +contextual [Setting.Follows, Setting.only, Setting.Agrees, layered, standard]
  | fileKind => exact ⟨hfiled, fun hnone => hasm (congrArg ConfigValues.fileKind? hnone)⟩
  | verify => simp +contextual [Setting.Follows, Setting.only, Setting.Agrees, layered, standard]
  | jobs => simp +contextual [Setting.Follows, Setting.only, Setting.Agrees, layered, standard]

/-- Without flags the settings come out exactly when the dialect and the kind of output that are taken
from the file can be read. -/
theorem exists_resolve_iff (hprocessors : 1 ≤ processors)
    (hflags : ∀ s : Setting, s.isFlagged o = false)
    (hjobs : ∀ n ∈ file.values.jobs?, 1 ≤ n) :
    (∃ x, resolve processors (some file) o = .ok x) ↔
      (∃ dialect, readDialect file.values.dialect? = .ok dialect) ∧
        isReadable file.values.fileKind? = true := by
  rw [resolve_eq_layered, Overrides.eq_of_not_isFlagged hflags]
  have htaken : ((none : Option String) <|> file.values.dialect?) = file.values.dialect? := rfl
  simp only [htaken]
  cases hdialect : readDialect file.values.dialect? with
  | error e => simp
  | ok dialect =>
    cases hread : isReadable file.values.fileKind? with
    | false =>
      obtain ⟨value, -, herror⟩ := kindOver_eq_error hread (some file.path) .asm
      simp [herror]
    | true =>
      obtain ⟨kind, hkind⟩ := exists_kindOver hread (some file.path) .asm
      have hpositive : 1 ≤ file.values.jobs?.getD processors := by
        cases hgiven : file.values.jobs? with
        | none => exact hprocessors
        | some n => exact hjobs n hgiven
      have hkept : kindOver none none kind = .ok kind := rfl
      simp [hkind, hkept, layered, Int64.not_lt.mpr hpositive]

/-- The number of jobs of a file that was loaded is positive. -/
theorem one_le_jobs_of_ofValues {path : String} {values : ConfigValues}
    (h : ConfigFile.ofValues path values = .ok file) :
    file.values = values ∧ ∀ n ∈ file.values.jobs?, 1 ≤ n := by
  unfold ConfigFile.ofValues at h
  split at h
  · cases h
  split at h
  · cases h
  next hjobs =>
    obtain rfl := (Except.ok.inj h).symm
    refine ⟨rfl, ?_⟩
    rintro n hn
    rw [Option.mem_def.mp hn, Option.any_some, decide_eq_true_eq] at hjobs
    exact Int64.not_lt.mp hjobs

/-- A file that is loaded was stored, and what is taken from it is looked at once more. -/
theorem exists_document_of_ofText {path text : String}
    (h : ConfigFile.ofText path text = .ok file) :
    ∃ d, Toml.Document.ofShape ConfigFile.shape text = .ok d ∧
      file.values = .ofTable d.root ∧ ∀ n ∈ file.values.jobs?, 1 ≤ n := by
  unfold ConfigFile.ofText at h
  split at h
  · cases h
  next d hd => exact ⟨d, hd, one_le_jobs_of_ofValues h⟩

/-- What an accepted file does without flags. The settings come out exactly when the dialect and the
kind of output that are taken from it can be read. Then a value that is stored is in effect exactly when
its key is spelled as asked for, or when it says what holds without the file; and a setting for which
nothing is stored is the default. -/
theorem stored_value_takes_effect_iff {path text : String} (hprocessors : 1 ≤ processors)
    (hflags : ∀ s : Setting, s.isFlagged o = false) (hfile : ConfigFile.ofText path text = .ok file) :
    ∃ d, Toml.Document.ofShape ConfigFile.shape text = .ok d ∧
      ((∃ x, resolve processors (some file) o = .ok x) ↔
        (∃ dialect, readDialect file.values.dialect? = .ok dialect) ∧
          isReadable file.values.fileKind? = true) ∧
      ∀ x, resolve processors (some file) o = .ok x → ∀ s : Setting,
        (s.IsGiven (ConfigValues.stored d.root) →
          (s.Follows (ConfigValues.stored d.root) x ↔
            d.root.isDefined s.path = true ∨
              s.Follows (ConfigValues.stored d.root) (standard processors))) ∧
        (¬ s.IsGiven (ConfigValues.stored d.root) → s.Agrees x (standard processors)) := by
  obtain ⟨d, hd, htaken, hjobs⟩ := exists_document_of_ofText hfile
  refine ⟨d, hd, exists_resolve_iff hprocessors hflags hjobs, fun x hx s => ?_⟩
  obtain ⟨hfollows, hdefault⟩ := follows_of_resolve hflags hx s
  have honly := Setting.only_ofTable s d.root
  rw [htaken] at hfollows hdefault
  cases hdefined : d.root.isDefined s.path with
  | true =>
    -- what is taken is what is stored
    rw [if_pos hdefined] at honly
    refine ⟨fun _ => iff_of_true ((Setting.follows_congr honly).mp hfollows) (.inl rfl),
      fun hnone => ?_⟩
    rw [Setting.IsGiven, ← honly] at hnone
    exact hdefault hnone
  | false =>
    -- nothing is taken, so the setting is the default
    rw [if_neg (by simp [hdefined])] at honly
    have hagrees : s.Agrees x (standard processors) := hdefault (not_not.mpr honly)
    refine ⟨fun _ => ?_, fun _ => hagrees⟩
    rw [hagrees.follows_iff]
    simp

/-- A configuration file with three keys spelled as asked for and one in another case. -/
def mixedKeys : String :=
  "[target]\ntriple = \" linux \"\n[asm]\nSyntax = \"intel\"\n[emit]\nverify = true\njobs = 4\n"

/-- Of what this file stores, the platform and the check are in effect and the dialect is not; the kind
of output, for which nothing is stored, is the default. -/
theorem mixed_keys_followed :
    (1 : Int64) ≤ 4 ∧ (∀ s : Setting, s.isFlagged {} = false) ∧
      ∃ file, ConfigFile.ofText "mcemit.toml" mixedKeys = .ok file ∧
        ∃ d, Toml.Document.ofShape ConfigFile.shape mixedKeys = .ok d ∧
          ∃ x, resolve 4 (some file) {} = .ok x ∧
            Setting.triple.Follows (ConfigValues.stored d.root) x ∧
            ¬ Setting.dialect.Follows (ConfigValues.stored d.root) x ∧
            Setting.verify.Follows (ConfigValues.stored d.root) x ∧
            Setting.fileKind.Agrees x (standard 4) := by
  have hflags : ∀ s : Setting, s.isFlagged {} = false := by
    intro s
    cases s <;> rfl
  have hfile : ConfigFile.ofText "mcemit.toml" mixedKeys =
      .ok { path := "mcemit.toml",
            values := { triple? := some " linux ", verify? := some true, jobs? := some 4 } } := by
    decide +kernel
  obtain ⟨d, hd, hresolved, hsettings⟩ :=
    stored_value_takes_effect_iff (by decide : (1 : Int64) ≤ 4) hflags hfile
  obtain ⟨x, hx⟩ := hresolved.mpr ⟨⟨.att, by decide +kernel⟩, rfl⟩
  have hread : (Toml.Document.ofShape ConfigFile.shape mixedKeys).toOption.map
      (fun d => (ConfigValues.stored d.root, d.root.isDefined ["target", "triple"],
        d.root.isDefined ["asm", "syntax"], d.root.isDefined ["emit", "verify"])) =
      some ({ triple? := some " linux ", dialect? := some "intel", verify? := some true,
              jobs? := some 4 }, true, false, true) := by
    decide +kernel
  simp only [hd, Except.toOption, Option.map_some, Option.some.injEq, Prod.mk.injEq] at hread
  obtain ⟨hstored, htriple, hdialect, hverify⟩ := hread
  have hintel : Dialect.parse "intel" ≠ .ok .att := by decide +kernel
  refine ⟨by decide, hflags, _, hfile, d, hd, x, hx, ?_, ?_, ?_, ?_⟩
  · exact ((hsettings x hx .triple).1 (by simp [Setting.IsGiven, Setting.only, hstored])).mpr
      (.inl htriple)
  · rw [(hsettings x hx .dialect).1 (by simp [Setting.IsGiven, Setting.only, hstored])]
    rintro (hfalse | hfalse)
    · exact absurd (hdialect.symm.trans hfalse) nofun
    · exact hintel (hfalse "intel" (by rw [hstored]; rfl))
  · exact ((hsettings x hx .verify).1 (by simp [Setting.IsGiven, Setting.only, hstored])).mpr
      (.inl hverify)
  · exact (hsettings x hx .fileKind).2 (by simp [Setting.IsGiven, Setting.only, hstored])

/-- A number of jobs under capital keys is accepted and stored, and the settings have another. -/
theorem capital_key_ignored :
    ∃ file d x, ConfigFile.ofText "mcemit.toml" "[Emit]\nJobs = 5\n" = .ok file ∧
      Toml.Document.ofShape ConfigFile.shape "[Emit]\nJobs = 5\n" = .ok d ∧
      (ConfigValues.stored d.root).jobs? = some 5 ∧
      resolve 4 (some file) {} = .ok x ∧ x.jobs = 4 ∧
      ¬ Setting.jobs.Follows (ConfigValues.stored d.root) x := by
  have hread : (Toml.Document.ofShape ConfigFile.shape "[Emit]\nJobs = 5\n").toOption.map
      (fun d => (ConfigValues.stored d.root).jobs?) = some (some 5) := by
    decide +kernel
  cases hd : Toml.Document.ofShape ConfigFile.shape "[Emit]\nJobs = 5\n" with
  | error e =>
    rw [hd] at hread
    cases hread
  | ok d =>
    rw [hd] at hread
    have hjobs : (ConfigValues.stored d.root).jobs? = some 5 := Option.some.inj hread
    refine ⟨⟨"mcemit.toml", {}⟩, d, standard 4, by decide +kernel, rfl, hjobs, by decide +kernel,
      rfl, ?_⟩
    intro hfollows
    exact absurd (hfollows 5 hjobs) (by decide)

end Settings

end Command

end CodeEmission

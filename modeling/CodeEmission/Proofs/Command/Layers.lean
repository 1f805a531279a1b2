import CodeEmission.Command.Settings
import Mathlib.Data.List.Basic

/-!
# Settings in Layers

Six settings can be given by the configuration file and by a flag. `Settings.resolve` puts the layers
together; here it is taken apart into what each layer adds, and it is asked when a value of the file
still matters under a flag that replaces it.

* `Settings.resolve_eq_layered`: reading the dialect, the file's kind of output and the flag's, in
  this order, and then one record made of all layers (`Settings.layered`).
* `Settings.resolve_without`: where a flag gives a setting other than the kind of output, the value
  of the file is not looked at.
* `Settings.flag_hides_file_iff`: two files that differ in one setting give the same result under its
  flag, except for the kind of output, which the file must still be able to say.

A file with a kind of output that does not exist is refused whatever the flag says
(`Settings.replaced_kind_still_read`).
-/

namespace CodeEmission.Command

/-- A setting that both a configuration file and a flag can give. -/
inductive Setting where
  | triple | dialect | dataRegions | fileKind | verify | jobs
  deriving DecidableEq, Repr

namespace Setting

/-- What a file gives, without its value for the setting. -/
def without : Setting → ConfigValues → ConfigValues
  | triple, values => { values with triple? := none }
  | dialect, values => { values with dialect? := none }
  | dataRegions, values => { values with markDataRegions? := none }
  | fileKind, values => { values with fileKind? := none }
  | verify, values => { values with verify? := none }
  | jobs, values => { values with jobs? := none }

/-- Whether a flag gives the setting. -/
def isFlagged : Setting → Overrides → Bool
  | triple, o => o.triple?.isSome
  | dialect, o => o.dialect?.isSome
  | dataRegions, o => o.markDataRegions?.isSome
  | fileKind, o => o.fileKind?.isSome
  | verify, o => o.verify?.isSome
  | jobs, o => o.jobs?.isSome

end Setting

/-- The kind of output after a layer: the one that the layer gives, or the one before it. -/
def kindOver (file? given? : Option String) (before : FileKind) : Except SettingsError FileKind :=
  match given? with
  | some value => readKind file? value
  | none => .ok before

/-- Whether the kind of output of a layer is left out or can be read. -/
def isReadable : Option String → Bool
  | some value => (FileKind.ofFlag? value).isSome
  | none => true

theorem exists_kindOver {given? : Option String} (h : isReadable given? = true)
    (file? : Option String) (before : FileKind) :
    ∃ kind, kindOver file? given? before = .ok kind := by
  cases given? with
  | none => exact ⟨before, rfl⟩
  | some value =>
    rw [isReadable, Option.isSome_iff_exists] at h
    obtain ⟨kind, hkind⟩ := h
    refine ⟨kind, ?_⟩
    rw [kindOver, readKind, hkind]

/-- A layer whose kind of output cannot be read fails, and the failure tells which layer it is. -/
theorem kindOver_eq_error {given? : Option String} (h : isReadable given? = false)
    (file? : Option String) (before : FileKind) :
    ∃ value, given? = some value ∧
      kindOver file? given? before = .error (.fileKind file? value) := by
  cases given? with
  | none => cases h
  | some value =>
    rw [isReadable, Option.isSome_eq_false_iff, Option.isNone_iff_eq_none] at h
    refine ⟨value, rfl, ?_⟩
    rw [kindOver, readKind, h]

/-- The dialect that a layer names; where none does, it is the usual one. -/
def readDialect (given? : Option String) : Except SettingsError Dialect :=
  match Dialect.parse (given?.getD "") with
  | .error cause => .error (.dialect cause)
  | .ok dialect => .ok dialect

theorem eq_dialect_of_readDialect {given? : Option String} {e : SettingsError}
    (h : readDialect given? = .error e) : ∃ cause, e = .dialect cause := by
  unfold readDialect at h
  split at h
  next cause _ => exact ⟨cause, (Except.error.inj h).symm⟩
  next => cases h

/-- The choices that enter the profile can fail in their dialect only. -/
theorem resolveConventions_eq_map (file : ConfigFile) (o : Overrides) :
    resolveConventions (some file) o =
      (readDialect (o.dialect? <|> file.values.dialect?)).map fun dialect =>
        { dialect
          markDataRegions := (o.markDataRegions? <|> file.values.markDataRegions?).getD false } := by
  unfold resolveConventions readDialect
  dsimp only [Option.map_some, Option.getD_some]
  cases Dialect.parse ((o.dialect? <|> file.values.dialect?).getD "") <;> rfl

namespace Settings

/-- The defaults, the values of a file and the flags as one record. The dialect and the kind of output
have been read already. -/
def layered (processors : Int64) (values : ConfigValues) (o : Overrides) (dialect : Dialect)
    (kind : FileKind) : Settings :=
  { triple := o.triple?.getD ((values.triple?.map Text.trim).getD Triple.host.render)
    conventions :=
      { dialect, markDataRegions := (o.markDataRegions? <|> values.markDataRegions?).getD false }
    options :=
      { fileKind := kind
        verify := o.verify?.getD (values.verify?.getD false)
        startAfter := o.startAfter?.getD ""
        stopAfter := o.stopAfter?.getD "" }
    jobs := o.jobs?.getD (values.jobs?.getD processors) }

variable {processors : Int64} {file file' : ConfigFile} {o : Overrides} {s : Setting}

/-- A file can fail in its kind of output only. -/
theorem withFile_eq_map (x : Settings) (file : ConfigFile) :
    x.withFile file =
      (kindOver (some file.path) file.values.fileKind? x.options.fileKind).map fun kind =>
        { x with
          triple := (file.values.triple?.map Text.trim).getD x.triple
          options := { x.options with
            fileKind := kind
            verify := file.values.verify?.getD x.options.verify }
          jobs := file.values.jobs?.getD x.jobs } := by
  unfold withFile kindOver
  cases file.values.fileKind? with
  | none => rfl
  | some value =>
    dsimp only
    cases readKind (some file.path) value <;> rfl

/-- Flags can fail in their kind of output only. -/
theorem withFlags_eq_map (x : Settings) (o : Overrides) :
    x.withFlags o =
      (kindOver none o.fileKind? x.options.fileKind).map fun kind =>
        { x with
          triple := o.triple?.getD x.triple
          options :=
            { fileKind := kind
              verify := o.verify?.getD x.options.verify
              startAfter := o.startAfter?.getD x.options.startAfter
              stopAfter := o.stopAfter?.getD x.options.stopAfter }
          jobs := o.jobs?.getD x.jobs } := by
  unfold withFlags kindOver
  cases o.fileKind? with
  | none => rfl
  | some value =>
    dsimp only
    cases readKind none value <;> rfl

/-- The layers one by one: the first that cannot be read decides the failure, and the number of jobs
is looked at last. -/
theorem resolve_eq_layered (processors : Int64) (file : ConfigFile) (o : Overrides) :
    resolve processors (some file) o =
      match readDialect (o.dialect? <|> file.values.dialect?) with
      | .error e => .error e
      | .ok dialect =>
        match kindOver (some file.path) file.values.fileKind? .asm with
        | .error e => .error e
        | .ok filed =>
          match kindOver none o.fileKind? filed with
          | .error e => .error e
          | .ok kind =>
            let x := layered processors file.values o dialect kind
            if x.jobs < 1 then .error (.jobs x.jobs) else .ok x := by
  unfold resolve
  simp only [resolveConventions_eq_map, withFile_eq_map, withFlags_eq_map]
  cases readDialect (o.dialect? <|> file.values.dialect?) with
  | error e => rfl
  | ok dialect =>
    simp only [bind, Except.bind, Except.map, standard]
    cases kindOver (some file.path) file.values.fileKind? .asm with
    | error e => rfl
    | ok filed =>
      dsimp only
      cases kindOver none o.fileKind? filed with
      | error e => rfl
      | ok kind =>
        dsimp only
        split
        next hjobs => exact (if_pos hjobs).symm
        next hjobs => exact (if_neg hjobs).symm

/-- Settings that came out are those of the layers, each of which could be read. -/
theorem resolve_eq_ok {x : Settings} (h : resolve processors (some file) o = .ok x) :
    ∃ dialect filed kind, readDialect (o.dialect? <|> file.values.dialect?) = .ok dialect ∧
      kindOver (some file.path) file.values.fileKind? .asm = .ok filed ∧
      kindOver none o.fileKind? filed = .ok kind ∧
      x = layered processors file.values o dialect kind := by
  rw [resolve_eq_layered] at h
  split at h
  · cases h
  next dialect hdialect =>
    split at h
    · cases h
    next filed hfiled =>
      split at h
      · cases h
      next kind hkind =>
        dsimp only at h
        split at h
        · cases h
        · exact ⟨dialect, filed, kind, hdialect, hfiled, hkind, (Except.ok.inj h).symm⟩

/-- Under its flag, the value of a file for a setting other than the kind of output is not looked
at. -/
theorem resolve_without (hflag : s.isFlagged o = true) (hs : s ≠ .fileKind) :
    resolve processors (some { file with values := s.without file.values }) o =
      resolve processors (some file) o := by
  -- dialect and kind of output are read from the same texts, and the records are the same
  have hdialect : (o.dialect? <|> (s.without file.values).dialect?) =
      (o.dialect? <|> file.values.dialect?) := by
    cases s with
    | dialect =>
      obtain ⟨value, hvalue⟩ := Option.isSome_iff_exists.mp hflag
      simp [hvalue]
    | _ => rfl
  have hkind : (s.without file.values).fileKind? = file.values.fileKind? := by
    cases s with
    | fileKind => exact absurd rfl hs
    | _ => rfl
  have hlayered : layered processors (s.without file.values) o =
      layered processors file.values o := by
    funext dialect kind
    cases s with
    | triple =>
      obtain ⟨value, hvalue⟩ := Option.isSome_iff_exists.mp hflag
      simp [layered, hvalue, Setting.without]
    | dataRegions =>
      obtain ⟨value, hvalue⟩ := Option.isSome_iff_exists.mp hflag
      simp [layered, hvalue, Setting.without]
    | verify =>
      obtain ⟨value, hvalue⟩ := Option.isSome_iff_exists.mp hflag
      simp [layered, hvalue, Setting.without]
    | jobs =>
      obtain ⟨value, hvalue⟩ := Option.isSome_iff_exists.mp hflag
      simp [layered, hvalue, Setting.without]
    | _ => rfl
  rw [resolve_eq_layered, resolve_eq_layered, hdialect, hkind, hlayered]

/-- A file whose kind of output can be read is not asked for it under the flag. -/
theorem resolve_without_kind (hflag : o.fileKind?.isSome = true)
    (hread : isReadable file.values.fileKind? = true) :
    resolve processors (some { file with values := Setting.fileKind.without file.values }) o =
      resolve processors (some file) o := by
  obtain ⟨value, hvalue⟩ := Option.isSome_iff_exists.mp hflag
  obtain ⟨filed, hfiled⟩ := exists_kindOver hread (some file.path) .asm
  have hlayered : layered processors (Setting.fileKind.without file.values) o =
      layered processors file.values o := rfl
  rw [resolve_eq_layered, resolve_eq_layered, hfiled, hlayered]
  simp only [hvalue, kindOver, Setting.without]

/-- A file whose kind of output cannot be read is refused for it, if the dialect can be read. -/
theorem resolve_of_not_isReadable (processors : Int64)
    (hread : isReadable file.values.fileKind? = false)
    {dialect : Dialect} (hdialect : readDialect (o.dialect? <|> file.values.dialect?) = .ok dialect) :
    ∃ value, file.values.fileKind? = some value ∧
      resolve processors (some file) o = .error (.fileKind (some file.path) value) := by
  obtain ⟨value, hvalue, herror⟩ := kindOver_eq_error hread (some file.path) .asm
  refine ⟨value, hvalue, ?_⟩
  rw [resolve_eq_layered, hdialect, herror]

/-- A file whose kind of output can be read is not refused for it. -/
theorem resolve_ne_of_isReadable (hread : isReadable file.values.fileKind? = true)
    (path value : String) :
    resolve processors (some file) o ≠ .error (.fileKind (some path) value) := by
  obtain ⟨filed, hfiled⟩ := exists_kindOver hread (some file.path) .asm
  rw [resolve_eq_layered, hfiled]
  cases hdialect : readDialect (o.dialect? <|> file.values.dialect?) with
  | error e =>
    obtain ⟨cause, rfl⟩ := eq_dialect_of_readDialect hdialect
    exact nofun
  | ok dialect =>
    cases hflag : isReadable o.fileKind? with
    | true =>
      obtain ⟨kind, hkind⟩ := exists_kindOver hflag none filed
      dsimp only
      rw [hkind]
      dsimp only
      split
      · exact nofun
      · exact nofun
    | false =>
      -- a flag that cannot be read is reported without a file
      obtain ⟨value', -, herror⟩ := kindOver_eq_error hflag none filed
      dsimp only
      rw [herror]
      exact nofun

/-- Two files at one path that differ at most in what they give for one setting. -/
structure DiffersIn (s : Setting) (file file' : ConfigFile) : Prop where
  /-- They are told apart by their values alone. -/
  path : file.path = file'.path
  /-- Their values for the other settings are the same. -/
  others : s.without file.values = s.without file'.values

theorem DiffersIn.eq_of_fileKind? (h : DiffersIn .fileKind file file')
    (hkind : file.values.fileKind? = file'.values.fileKind?) : file = file' := by
  obtain ⟨path, values⟩ := file
  obtain ⟨path', values'⟩ := file'
  obtain ⟨rfl, hothers⟩ := h
  obtain ⟨triple?, dialect?, markDataRegions?, fileKind?, verify?, jobs?⟩ := values
  obtain ⟨triple?', dialect?', markDataRegions?', fileKind?', verify?', jobs?'⟩ := values'
  simp_all [Setting.without]

theorem DiffersIn.without_eq (h : DiffersIn s file file') :
    ConfigFile.mk file.path (s.without file.values) =
      ConfigFile.mk file'.path (s.without file'.values) := by
  rw [h.path, h.others]

theorem DiffersIn.dialect?_eq (h : DiffersIn .fileKind file file') :
    file.values.dialect? = file'.values.dialect? := by
  show (Setting.fileKind.without file.values).dialect? = _
  rw [h.others]
  rfl

/-- Files that differ in a setting other than the kind of output give the same under its flag. -/
theorem DiffersIn.resolve_eq (h : DiffersIn s file file') (hflag : s.isFlagged o = true)
    (hs : s ≠ .fileKind) :
    resolve processors (some file) o = resolve processors (some file') o := by
  calc resolve processors (some file) o
      = resolve processors (some { file with values := s.without file.values }) o :=
        (resolve_without hflag hs).symm
    _ = resolve processors (some { file' with values := s.without file'.values }) o := by
        rw [h.without_eq]
    _ = resolve processors (some file') o := resolve_without hflag hs

/-- Files that differ in the kind of output, where the dialect can be read: under the flag they give the
same exactly when both kinds can be read or there is no difference. -/
theorem DiffersIn.resolve_eq_iff (h : DiffersIn .fileKind file file')
    (hflag : o.fileKind?.isSome = true) {dialect : Dialect}
    (hdialect : readDialect (o.dialect? <|> file.values.dialect?) = .ok dialect) :
    resolve processors (some file) o = resolve processors (some file') o ↔
      (isReadable file.values.fileKind? = true ∧ isReadable file'.values.fileKind? = true) ∨
        file = file' := by
  have hdialect' : readDialect (o.dialect? <|> file'.values.dialect?) = .ok dialect :=
    h.dialect?_eq ▸ hdialect
  cases hread : isReadable file.values.fileKind? with
  | true =>
    cases hread' : isReadable file'.values.fileKind? with
    | true =>
      refine iff_of_true ?_ (.inl ⟨rfl, rfl⟩)
      rw [← resolve_without_kind hflag hread, ← resolve_without_kind hflag hread', h.without_eq]
    | false =>
      obtain ⟨value, -, herror⟩ := resolve_of_not_isReadable processors hread' hdialect'
      refine iff_of_false ?_ ?_
      · rw [herror]
        exact resolve_ne_of_isReadable hread _ _
      · rintro (⟨-, hfalse⟩ | rfl)
        · cases hfalse
        · cases hread.symm.trans hread'
  | false =>
    obtain ⟨value, hvalue, herror⟩ := resolve_of_not_isReadable processors hread hdialect
    cases hread' : isReadable file'.values.fileKind? with
    | true =>
      refine iff_of_false ?_ ?_
      · rw [herror]
        exact (resolve_ne_of_isReadable hread' _ _).symm
      · rintro (⟨hfalse, -⟩ | rfl)
        · cases hfalse
        · cases hread.symm.trans hread'
    | false =>
      -- each is refused for its own kind, so the kinds decide
      obtain ⟨value', hvalue', herror'⟩ := resolve_of_not_isReadable processors hread' hdialect'
      rw [herror, herror']
      constructor
      · intro hsame
        obtain ⟨-, rfl⟩ := SettingsError.fileKind.inj (Except.error.inj hsame)
        exact .inr (h.eq_of_fileKind? (hvalue.trans hvalue'.symm))
      · rintro (⟨hfalse, -⟩ | rfl)
        · cases hfalse
        · rw [Option.some.inj (hvalue.symm.trans hvalue')]

/-- Two files that differ in one setting give the same settings or the same failure under the flag of
that setting, whatever else the files and the flags say, unless the setting is the kind of output. Then
they do exactly when nothing is left to tell them apart: the dialect is refused before the kind is
looked at, or both files say a kind that can be read or none, or they are one file. -/
theorem flag_hides_file_iff (hflag : s.isFlagged o = true) (hfiles : DiffersIn s file file') :
    resolve processors (some file) o = resolve processors (some file') o ↔
      s ≠ .fileKind ∨ (∃ e, resolveConventions (some file) o = .error e) ∨
        (isReadable file.values.fileKind? = true ∧ isReadable file'.values.fileKind? = true) ∨
        file = file' := by
  by_cases hs : s = .fileKind
  case neg => exact iff_of_true (hfiles.resolve_eq hflag hs) (.inl hs)
  subst hs
  cases hdialect : readDialect (o.dialect? <|> file.values.dialect?) with
  | error e =>
    -- neither file gets as far as its kind of output
    refine iff_of_true ?_ (.inr (.inl ⟨e, ?_⟩))
    · rw [resolve_eq_layered, resolve_eq_layered, ← hfiles.dialect?_eq, hdialect]
    · rw [resolveConventions_eq_map, hdialect]
      rfl
  | ok dialect =>
    have hnone : ¬ ∃ e, resolveConventions (some file) o = .error e := by
      rw [resolveConventions_eq_map, hdialect]
      exact fun ⟨e, he⟩ => nomatch he
    rw [hfiles.resolve_eq_iff hflag hdialect]
    simp only [ne_eq, not_true_eq_false, false_or, hnone]

/-- The flags of a command line that asks for objects. -/
def objectFlag : Overrides :=
  { fileKind? := some "obj" }

/-- A configuration file that says a kind of output, or none. -/
def kindFile (fileKind? : Option String) : ConfigFile :=
  { path := "mcemit.toml", values := { fileKind? } }

/-- Under the flag a file that says assembly and one that says nothing give the same. -/
theorem readable_kinds_hidden :
    Setting.fileKind.isFlagged objectFlag = true ∧
      DiffersIn .fileKind (kindFile (some "asm")) (kindFile none) ∧
      resolve 4 (some (kindFile (some "asm"))) objectFlag =
        resolve 4 (some (kindFile none)) objectFlag := by
  have hflag : Setting.fileKind.isFlagged objectFlag = true := rfl
  have hfiles : DiffersIn .fileKind (kindFile (some "asm")) (kindFile none) := ⟨rfl, rfl⟩
  have hread : isReadable (some "asm") = true := by decide +kernel
  exact ⟨hflag, hfiles,
    (flag_hides_file_iff hflag hfiles).mpr (.inr (.inr (.inl ⟨hread, rfl⟩)))⟩

/-- A file with a kind that does not exist is loaded, and then refused although the flag replaces the
kind, while the file without a kind gives settings. -/
theorem replaced_kind_still_read :
    ConfigFile.ofText "mcemit.toml" "[emit]\nfiletype = \"exe\"\n" = .ok (kindFile (some "exe")) ∧
      ConfigFile.ofText "mcemit.toml" "" = .ok (kindFile none) ∧
      Setting.fileKind.isFlagged objectFlag = true ∧
      DiffersIn .fileKind (kindFile (some "exe")) (kindFile none) ∧
      resolve 4 (some (kindFile (some "exe"))) objectFlag =
        .error (.fileKind (some "mcemit.toml") "exe") ∧
      resolve 4 (some (kindFile none)) objectFlag =
        .ok { standard 4 with options := { fileKind := .obj } } := by
  refine ⟨?_, ?_, rfl, ⟨rfl, rfl⟩, ?_, ?_⟩
  all_goals decide +kernel

end Settings

end CodeEmission.Command

import CodeEmission.Proofs.Assembly.Legibility
import CodeEmission.Proofs.Mangle.Resolution
import CodeEmission.Proofs.Pipeline.Standard
import Mathlib.Data.List.Nodup
import Mathlib.Data.List.Perm.Basic

/-!
# When Mangling Keeps Names Apart

Mangling gives a symbol to every entity of a unit, to every local name of its functions and to every
name that it takes from elsewhere. This module says exactly which of them end up with one symbol.

* `Named` is a thing that gets a symbol, `EmittedAs` says which one it gets, and `Clash` lists the
  ways in which two things come to share theirs.
* `Mangle.same_symbol_iff_clash`: in a unit that passes the checks after mangling, two things share a
  symbol exactly when they clash; and its object, or its listing, defines each name once exactly when
  nothing that it defines clashes. In a legible unit, so does the assembly text.

The checks keep entities apart from each other, and the labels of one function. A label's symbol is
the function's name and the label with an underscore between them, which does not tell where the
name ends: the label `c` of a function `a_b` and the label `b_c` of a function `a` have one symbol
(`Mangle.underscore_labels_merged`).
-/

namespace CodeEmission

/-- Where the second first part of two divisions at an underscore goes on by `t`, it either does not
go on at all or goes on with the underscore of the other. -/
theorem division_of_append {a b l m : String} {t : List Char} (hb : b.toList = a.toList ++ t)
    (hl : '_' :: l.toList = t ++ '_' :: m.toList) :
    (a = b ∧ l = m) ∨ ∃ t, b = a ++ "_" ++ t ∧ l = t ++ "_" ++ m := by
  cases t with
  | nil =>
    rw [List.append_nil] at hb
    exact .inl ⟨String.toList_inj.mp hb.symm, String.toList_inj.mp (List.cons.inj hl).2⟩
  | cons c t =>
    obtain ⟨rfl, hrest⟩ := List.cons.inj hl
    refine .inr ⟨String.ofList t, String.toList_inj.mp ?_, String.toList_inj.mp ?_⟩
    · simp [hb]
    · simp [hrest]

/-- A text can be divided at an underscore in more than one way: either both ways are the same, or
one of the first parts goes on with an underscore. -/
theorem append_underscore_eq_iff {a b l m : String} :
    a ++ "_" ++ l = b ++ "_" ++ m ↔
      (a = b ∧ l = m) ∨ (∃ t, b = a ++ "_" ++ t ∧ l = t ++ "_" ++ m) ∨
        ∃ t, a = b ++ "_" ++ t ∧ m = t ++ "_" ++ l := by
  constructor
  · intro h
    have hchars : a.toList ++ '_' :: l.toList = b.toList ++ '_' :: m.toList := by
      simpa using congrArg String.toList h
    -- both texts begin alike, so one of the first parts goes on where the other ends
    rcases List.append_eq_append_iff.mp hchars with ⟨t, hb, hl⟩ | ⟨t, ha, hm⟩
    · rcases division_of_append hb hl with hsame | hlonger
      · exact .inl hsame
      · exact .inr (.inl hlonger)
    · rcases division_of_append ha hm with ⟨rfl, rfl⟩ | hlonger
      · exact .inl ⟨rfl, rfl⟩
      · exact .inr (.inr hlonger)
  · rintro (⟨rfl, rfl⟩ | ⟨t, rfl, rfl⟩ | ⟨t, rfl, rfl⟩)
    · rfl
    · simp only [String.append_assoc]
    · simp only [String.append_assoc]

/-- A thing that gets a symbol: an entity by its number, a local name of a function by the numbers of
both, or a name that is taken from elsewhere. -/
inductive Named where
  | entity (number : Nat)
  | localName (func number : Nat)
  | outer (name : String)
  deriving DecidableEq, Repr

/-- Whether the unit itself defines a thing. -/
def Named.IsDefinition : Named → Prop
  | entity _ | localName _ _ => True
  | outer _ => False

/-- The private symbol of a local name. -/
def Func.privateSymbol (p : Profile) (f : Func) (name : String) : String :=
  p.privateMark ++ Text.composed f.name ++ "_" ++ name

/-- A thing of a unit and the symbol it has in the mangled unit. A name is taken from elsewhere when
a place refers to it that no entity and no label of the function around it answers. -/
inductive EmittedAs (p : Profile) (u : CodeUnit) : Named → String → Prop
  | entity {k : Nat} {e : Entity} (he : (Mangle.mangled p u).entities[k]? = some e) :
    EmittedAs p u (.entity k) e.emittedName
  | localName {k n : Nat} {f : Func} {l : String} (hf : (Mangle.mangled p u).funcs[k]? = some f)
    (hl : f.locals[n]? = some l) : EmittedAs p u (.localName k n) l
  | outer {r : Reference} {name symbol : String} (hr : u.outerNameAt? r = some name)
    (hundefined : ∀ e ∈ u.entities, Text.composed e.name ≠ Text.composed name)
    (hsymbol : (Mangle.mangled p u).nameAt? r = some symbol) : EmittedAs p u (.outer name) symbol

/-- Two things whose symbols are the same, by what their names are in the source. -/
inductive Clash (p : Profile) (u : CodeUnit) : Named → Named → Prop
  /-- Functions with one composed name have a local name in common. -/
  | twins {i j n m : Nat} {f g : Func} {l : String} (hij : i ≠ j) (hf : u.funcs[i]? = some f)
    (hg : u.funcs[j]? = some g) (hl : f.locals[n]? = some l) (hm : g.locals[m]? = some l)
    (hname : Text.composed f.name = Text.composed g.name) :
    Clash p u (.localName i n) (.localName j m)
  /-- A function's name goes on where another's ends and a local name of that one starts. -/
  | underscore {i j n m : Nat} {f g : Func} {l t : String} (hf : u.funcs[i]? = some f)
    (hg : u.funcs[j]? = some g) (hl : f.locals[n]? = some (t ++ "_" ++ l))
    (hm : g.locals[m]? = some l)
    (hname : Text.composed g.name = Text.composed f.name ++ "_" ++ t) :
    Clash p u (.localName i n) (.localName j m)
  /-- An entity is named as a local name is written. -/
  | localEntity {i n k : Nat} {f : Func} {l : String} {e : Entity} (hf : u.funcs[i]? = some f)
    (hl : f.locals[n]? = some l) (he : u.entities[k]? = some e)
    (hname : symbolFor p (Text.composed e.name) e.linkage = f.privateSymbol p l) :
    Clash p u (.localName i n) (.entity k)
  /-- A name from elsewhere is that of a local name as it is written. -/
  | localOuter {i n : Nat} {f : Func} {l name : String} (hf : u.funcs[i]? = some f)
    (hl : f.locals[n]? = some l)
    (hname : p.globalMark ++ Text.composed name = f.privateSymbol p l) :
    Clash p u (.localName i n) (.outer name)
  /-- A name from elsewhere is that of a hidden entity as it is written. -/
  | hiddenOuter {k : Nat} {e : Entity} {name : String} (he : u.entities[k]? = some e)
    (hhidden : e.linkage = .hidden)
    (hname : p.globalMark ++ Text.composed name = p.privateMark ++ Text.composed e.name) :
    Clash p u (.entity k) (.outer name)
  /-- Two names from elsewhere have one composed form. -/
  | outers {x y : String} (hxy : x ≠ y) (hname : Text.composed x = Text.composed y) :
    Clash p u (.outer x) (.outer y)

/-- Nothing clashes with itself. -/
theorem Clash.ne {p : Profile} {u : CodeUnit} {a b : Named} (h : Clash p u a b) : a ≠ b := by
  cases h with
  | twins hij => exact fun hsame => hij (Named.localName.inj hsame).1
  | @underscore i j n m f g l t hf hg _ _ hname =>
    rintro hsame
    obtain ⟨rfl, -⟩ := Named.localName.inj hsame
    obtain rfl := Option.some.inj (hf.symm.trans hg)
    -- a name is not longer than itself
    have hlength := congrArg String.length hname
    have hone : "_".length = 1 := rfl
    rw [String.length_append, String.length_append] at hlength
    omega
  | localEntity => exact nofun
  | localOuter => exact nofun
  | hiddenOuter => exact nofun
  | outers hxy => exact fun hsame => hxy (Named.outer.inj hsame)

namespace Mangle

variable {p : Profile} {u : CodeUnit} {a b : Named} {s t : String}

/-- Of names that are local names or empty, the others become private symbols. -/
theorem filter_map_localSymbol? (func : String) {locals names : List String}
    (h : ∀ name ∈ names, name ≠ "" → name ∈ locals) :
    (names.map fun name => (localSymbol? p func locals name).getD "").filter (· ≠ "") =
      (names.filter (· ≠ "")).map fun name => p.privateMark ++ func ++ "_" ++ name := by
  induction names with
  | nil => rfl
  | cons name rest ih =>
    obtain ⟨hname, hrest⟩ := List.forall_mem_cons.mp h
    by_cases hempty : name = ""
    · have hnone : localSymbol? p func locals name = none := by simp [localSymbol?, hempty]
      rw [List.map_cons, hnone, List.filter_cons_of_neg (by simp), ih hrest,
        List.filter_cons_of_neg (by simp [hempty])]
    · have hsome : localSymbol? p func locals name =
          some (p.privateMark ++ func ++ "_" ++ name) := by
        simp [localSymbol?, hempty, hname hempty]
      rw [List.map_cons, hsome, List.filter_cons_of_pos (by simp), ih hrest,
        List.filter_cons_of_pos (by simp [hempty]), List.map_cons]
      rfl

/-- The labels of a mangled function's instructions are the private symbols of the labels. -/
theorem labels_func (defs : List (String × String)) (f : Func) :
    (func p defs f).labels = f.labels.map (f.privateSymbol p) := by
  have hlocal : ∀ name ∈ f.insts.map Inst.label, name ≠ "" → name ∈ f.locals := fun name hname hne =>
    List.mem_append_left _ (List.mem_filter.mpr ⟨hname, by simpa using hne⟩)
  have hlabels := filter_map_localSymbol? (p := p) (Text.composed f.name) hlocal
  rw [List.map_map] at hlabels
  simp only [Func.labels, func, List.map_map]
  exact hlabels

/-- The labels of a mangled function's jump tables are the private symbols of the labels. -/
theorem tableLabels_func (defs : List (String × String)) (f : Func) :
    (func p defs f).tableLabels = f.tableLabels.map (f.privateSymbol p) := by
  have hlocal : ∀ name ∈ f.jumpTables.map JumpTable.label, name ≠ "" → name ∈ f.locals :=
    fun name hname hne =>
      List.mem_append_right _ (List.mem_filter.mpr ⟨hname, by simpa using hne⟩)
  have hlabels := filter_map_localSymbol? (p := p) (Text.composed f.name) hlocal
  rw [List.map_map] at hlabels
  simp only [Func.tableLabels, func, List.map_map]
  exact hlabels

/-- The local names of a mangled function are the private symbols of its local names. -/
theorem locals_func (defs : List (String × String)) (f : Func) :
    (func p defs f).locals = f.locals.map (f.privateSymbol p) := by
  rw [Func.locals, Func.locals, List.map_append, labels_func, tableLabels_func]

/-- A name that no entity answers takes the global mark. -/
theorem reference_eq_global {name : String}
    (h : ∀ e ∈ u.entities, Text.composed e.name ≠ Text.composed name) :
    reference p (definitions p u) name = p.globalMark ++ Text.composed name := by
  have hnone : ((definitions p u).reverse.find? fun d => d.1 = Text.composed name) = none := by
    rw [List.find?_eq_none, definitions_eq_map_entities]
    intro d hd
    obtain ⟨e, he, rfl⟩ := List.mem_map.mp (List.mem_reverse.mp hd)
    simpa using h e he
  rw [reference, hnone]

/-- An entity has the symbol of its linkage and composed name. -/
theorem emittedAs_entity_iff {k : Nat} :
    EmittedAs p u (.entity k) s ↔
      ∃ e, u.entities[k]? = some e ∧ s = symbolFor p (Text.composed e.name) e.linkage := by
  have hentities : ∀ e', (mangled p u).entities[k]? = some e' ↔
      ∃ e, u.entities[k]? = some e ∧ entity p (definitions p u) e = e' := by
    intro e'
    rw [entities_mangled, List.getElem?_map, Option.map_eq_some_iff]
  constructor
  · rintro ⟨hmangled⟩
    obtain ⟨e, he, rfl⟩ := (hentities _).mp hmangled
    exact ⟨e, he, emittedName_entity _ e⟩
  · rintro ⟨e, he, rfl⟩
    rw [← emittedName_entity (definitions p u) e]
    exact .entity ((hentities _).mpr ⟨e, he, rfl⟩)

/-- A local name has the private symbol of its function. -/
theorem emittedAs_localName_iff {k n : Nat} :
    EmittedAs p u (.localName k n) s ↔
      ∃ f l, u.funcs[k]? = some f ∧ f.locals[n]? = some l ∧ s = f.privateSymbol p l := by
  have hfuncs : (mangled p u).funcs[k]? = u.funcs[k]?.map (func p (definitions p u)) :=
    List.getElem?_map
  constructor
  · intro h
    cases h with
    | localName hf hl =>
      rw [hfuncs, Option.map_eq_some_iff] at hf
      obtain ⟨f, hf, rfl⟩ := hf
      rw [locals_func, List.getElem?_map, Option.map_eq_some_iff] at hl
      obtain ⟨l, hl, rfl⟩ := hl
      exact ⟨f, l, hf, hl, rfl⟩
  · rintro ⟨f, l, hf, hl, rfl⟩
    refine .localName (f := func p (definitions p u) f) ?_ ?_
    · rw [hfuncs, hf]
      rfl
    · rw [locals_func, List.getElem?_map, hl]
      rfl

/-- A name from elsewhere is no entity's and takes the global mark. -/
theorem symbol_of_outer {name : String} (h : EmittedAs p u (.outer name) s) :
    (∀ e ∈ u.entities, Text.composed e.name ≠ Text.composed name) ∧
      s = p.globalMark ++ Text.composed name := by
  cases h with
  | outer hr hundefined hsymbol =>
    rw [nameAt?_mangled hr, nonempty?_eq_some_iff, reference_eq_global hundefined] at hsymbol
    exact ⟨hundefined, hsymbol.1.symm⟩

/-- A thing has one symbol. -/
theorem emittedAs_unique (h : EmittedAs p u a s) (h' : EmittedAs p u a t) : s = t := by
  cases a with
  | entity k =>
    obtain ⟨e, he, rfl⟩ := emittedAs_entity_iff.mp h
    obtain ⟨e', he', rfl⟩ := emittedAs_entity_iff.mp h'
    rw [Option.some.inj (he.symm.trans he')]
  | localName k n =>
    obtain ⟨f, l, hf, hl, rfl⟩ := emittedAs_localName_iff.mp h
    obtain ⟨f', l', hf', hl', rfl⟩ := emittedAs_localName_iff.mp h'
    obtain rfl := Option.some.inj (hf.symm.trans hf')
    rw [Option.some.inj (hl.symm.trans hl')]
  | outer name => rw [(symbol_of_outer h).2, (symbol_of_outer h').2]

/-- A name among the local names of a mangled function is the symbol of one. -/
theorem exists_localName_of_mem {k : Nat} {f : Func} (hf : (mangled p u).funcs[k]? = some f)
    (hs : s ∈ f.locals) : ∃ n, EmittedAs p u (.localName k n) s := by
  obtain ⟨n, hn⟩ := List.mem_iff_getElem?.mp hs
  exact ⟨n, .localName hf hn⟩

/-- The symbol of a local name is among the local names of its mangled function. -/
theorem exists_func_of_localName {k n : Nat} (h : EmittedAs p u (.localName k n) s) :
    ∃ f, (mangled p u).funcs[k]? = some f ∧ s ∈ f.locals := by
  cases h with
  | localName hf hl => exact ⟨_, hf, List.mem_of_getElem? hl⟩

/-- The symbol of an entity is among the symbols of the mangled entities. -/
theorem mem_emittedNames_of_entity {k : Nat} (h : EmittedAs p u (.entity k) s) :
    s ∈ (mangled p u).entities.map Entity.emittedName := by
  cases h with
  | entity he => exact List.mem_map_of_mem (List.mem_of_getElem? he)

/-- A local name in the source has its symbol in the mangled unit. -/
theorem emittedAs_localName {k n : Nat} {f : Func} {l : String} (hf : u.funcs[k]? = some f)
    (hl : f.locals[n]? = some l) : EmittedAs p u (.localName k n) (f.privateSymbol p l) :=
  emittedAs_localName_iff.mpr ⟨f, l, hf, hl, rfl⟩

/-- Definitions that clash have a symbol in common. -/
theorem exists_symbol_of_clash (h : Clash p u a b) (hb : b.IsDefinition) :
    ∃ s, EmittedAs p u a s ∧ EmittedAs p u b s := by
  cases h with
  | @twins i j n m f g l _ hf hg hl hm hname =>
    have hsame : g.privateSymbol p l = f.privateSymbol p l := by
      rw [Func.privateSymbol, Func.privateSymbol, hname]
    exact ⟨_, emittedAs_localName hf hl, hsame ▸ emittedAs_localName hg hm⟩
  | @underscore i j n m f g l t hf hg hl hm hname =>
    have hsame : g.privateSymbol p l = f.privateSymbol p (t ++ "_" ++ l) := by
      rw [Func.privateSymbol, Func.privateSymbol, hname]
      simp only [String.append_assoc]
    exact ⟨_, emittedAs_localName hf hl, hsame ▸ emittedAs_localName hg hm⟩
  | localEntity hf hl he hname =>
    exact ⟨_, emittedAs_localName hf hl, emittedAs_entity_iff.mpr ⟨_, he, hname.symm⟩⟩
  | localOuter => cases hb
  | hiddenOuter => cases hb
  | outers => cases hb

/-- Things that clash have one symbol. -/
theorem symbol_eq_of_clash (ha : EmittedAs p u a s) (hb : EmittedAs p u b t)
    (h : Clash p u a b) : s = t := by
  cases b with
  | outer name =>
    rw [(symbol_of_outer hb).2]
    cases h with
    | localOuter hf hl hname => rw [hname, emittedAs_unique ha (emittedAs_localName hf hl)]
    | hiddenOuter he hhidden hname =>
      rw [hname, emittedAs_unique ha (emittedAs_entity_iff.mpr ⟨_, he, rfl⟩), symbolFor,
        if_pos hhidden]
    | outers hxy hname => rw [(symbol_of_outer ha).2, hname]
  | entity k =>
    obtain ⟨r, har, hbr⟩ := exists_symbol_of_clash h trivial
    rw [emittedAs_unique ha har, emittedAs_unique hb hbr]
  | localName k n =>
    obtain ⟨r, har, hbr⟩ := exists_symbol_of_clash h trivial
    rw [emittedAs_unique ha har, emittedAs_unique hb hbr]

/-- Local names of different functions that share a symbol clash. -/
theorem clash_of_localNames {i j n m : Nat} (hij : i ≠ j)
    (hn : EmittedAs p u (.localName i n) s) (hm : EmittedAs p u (.localName j m) s) :
    Clash p u (.localName i n) (.localName j m) ∨ Clash p u (.localName j m) (.localName i n) := by
  obtain ⟨f, l, hf, hl, rfl⟩ := emittedAs_localName_iff.mp hn
  obtain ⟨g, l', hg, hl', hsame⟩ := emittedAs_localName_iff.mp hm
  -- the private mark is that of the profile, so only names and labels are compared
  simp only [Func.privateSymbol, String.append_assoc, String.append_right_inj] at hsame
  simp only [← String.append_assoc] at hsame
  rcases append_underscore_eq_iff.mp hsame with ⟨hname, rfl⟩ | ⟨t, hname, rfl⟩ | ⟨t, hname, rfl⟩
  · exact .inl (.twins hij hf hg hl hl' hname)
  · exact .inl (.underscore hf hg hl hl' hname)
  · exact .inr (.underscore hg hf hl' hl hname)

/-- A local name and an entity that share a symbol clash. -/
theorem clash_of_localEntity {i n k : Nat} (hn : EmittedAs p u (.localName i n) s)
    (hk : EmittedAs p u (.entity k) s) : Clash p u (.localName i n) (.entity k) := by
  obtain ⟨f, l, hf, hl, rfl⟩ := emittedAs_localName_iff.mp hn
  obtain ⟨e, he, hsame⟩ := emittedAs_entity_iff.mp hk
  exact .localEntity hf hl he hsame.symm

/-- A local name and a name from elsewhere that share a symbol clash. -/
theorem clash_of_localOuter {i n : Nat} {name : String} (hn : EmittedAs p u (.localName i n) s)
    (hname : EmittedAs p u (.outer name) s) : Clash p u (.localName i n) (.outer name) := by
  obtain ⟨f, l, hf, hl, rfl⟩ := emittedAs_localName_iff.mp hn
  exact .localOuter hf hl (symbol_of_outer hname).2.symm

/-- An entity and a name from elsewhere share a symbol only if the entity is hidden: otherwise they
have one mark, and the name would be the entity's. -/
theorem clash_of_entityOuter {k : Nat} {name : String} (hk : EmittedAs p u (.entity k) s)
    (hname : EmittedAs p u (.outer name) s) : Clash p u (.entity k) (.outer name) := by
  obtain ⟨e, he, rfl⟩ := emittedAs_entity_iff.mp hk
  obtain ⟨hundefined, hsame⟩ := symbol_of_outer hname
  by_cases hhidden : e.linkage = .hidden
  · rw [symbolFor, if_pos hhidden] at hsame
    exact .hiddenOuter he hhidden hsame.symm
  · rw [symbolFor, if_neg hhidden, String.append_right_inj] at hsame
    exact absurd hsame (hundefined e (List.mem_of_getElem? he))

/-- Names from elsewhere that share a symbol clash. -/
theorem clash_of_outers {x y : String} (hxy : x ≠ y) (hx : EmittedAs p u (.outer x) s)
    (hy : EmittedAs p u (.outer y) s) : Clash p u (.outer x) (.outer y) := by
  have hsame := (symbol_of_outer hx).2.symm.trans (symbol_of_outer hy).2
  exact .outers hxy ((String.append_right_inj _).mp hsame)

section Verified

variable (hverify : verify (some (mangled p u)) = .ok ())

include hverify

/-- The local names of a function that share a symbol are the same. -/
theorem localName_eq_of_symbol_eq {k n m : Nat} (hn : EmittedAs p u (.localName k n) s)
    (hm : EmittedAs p u (.localName k m) s) : n = m := by
  cases hn with
  | @localName _ _ f _ hf hl =>
    cases hm with
    | @localName _ _ g _ hg hl' =>
      obtain rfl := Option.some.inj (hf.symm.trans hg)
      have hnodup : f.locals.Nodup :=
        Func.nodup_locals (func_faults_of_verify hverify (List.mem_of_getElem? hf))
      exact (List.getElem?_inj (List.getElem?_eq_some_iff.mp hl).1 hnodup).mp (hl.trans hl'.symm)

/-- Different things that share a symbol clash. -/
theorem clash_of_symbol_eq (hab : a ≠ b) (ha : EmittedAs p u a s) (hb : EmittedAs p u b s) :
    Clash p u a b ∨ Clash p u b a := by
  cases a with
  | entity k =>
    cases b with
    | entity j =>
      obtain ⟨e, he, rfl⟩ := emittedAs_entity_iff.mp ha
      obtain ⟨e', he', hsame⟩ := emittedAs_entity_iff.mp hb
      exact absurd (congrArg Named.entity (index_eq_of_symbolFor_eq hverify he' he hsame)) hab
    | localName j n => exact .inr (clash_of_localEntity hb ha)
    | outer name => exact .inl (clash_of_entityOuter ha hb)
  | localName i n =>
    cases b with
    | entity k => exact .inl (clash_of_localEntity ha hb)
    | localName j m =>
      by_cases hij : i = j
      · subst hij
        exact absurd (congrArg (Named.localName i) (localName_eq_of_symbol_eq hverify ha hb)) hab
      · exact clash_of_localNames hij ha hb
    | outer name => exact .inl (clash_of_localOuter ha hb)
  | outer name =>
    cases b with
    | entity k => exact .inr (clash_of_entityOuter hb ha)
    | localName j m => exact .inr (clash_of_localOuter hb ha)
    | outer name' => exact .inl (clash_of_outers (fun h => hab (congrArg Named.outer h)) ha hb)

/-- The names that the mangled unit defines are the symbols of its entities and its local names. -/
theorem definedNames_perm :
    (mangled p u).definedNames.Perm
      ((mangled p u).entities.map Entity.emittedName ++
        (mangled p u).funcs.flatMap Func.locals) := by
  have hfuncs : (mangled p u).funcs.flatMap Func.definedNames =
      (mangled p u).funcs.flatMap fun f => f.emittedName :: f.locals :=
    List.flatMap_congr fun f hf =>
      Func.definedNames_of_faultless (func_faults_of_verify hverify hf)
  have hentities : (mangled p u).entities.map Entity.emittedName =
      (mangled p u).funcs.map Func.emittedName ++
        (mangled p u).data.map DataObject.emittedName := by
    rw [CodeUnit.entities, List.map_append, List.map_map, List.map_map]
    rfl
  -- functions list their symbol before their local names; here all symbols come first
  rw [CodeUnit.definedNames, hfuncs, hentities, List.append_assoc]
  refine (List.Perm.append_right _ (List.map_append_flatMap_perm _ _ _).symm).trans ?_
  rw [List.append_assoc]
  exact List.perm_append_comm.append_left _

/-- Every name is defined once when the local names of different functions are apart, and all of
them from the symbols of entities. -/
theorem nodup_definedNames_iff_apart :
    (mangled p u).definedNames.Nodup ↔
      (∀ i j n m s, i ≠ j → EmittedAs p u (.localName i n) s →
        ¬ EmittedAs p u (.localName j m) s) ∧
      ∀ i n k s, EmittedAs p u (.localName i n) s → ¬ EmittedAs p u (.entity k) s := by
  rw [(definedNames_perm hverify).nodup_iff, List.nodup_append, List.nodup_flatMap,
    List.pairwise_iff_getElem]
  constructor
  · rintro ⟨-, ⟨-, hfuncs⟩, hentities⟩
    constructor
    · intro i j n m s hij hn hm
      obtain ⟨f, hf, hfs⟩ := exists_func_of_localName hn
      obtain ⟨g, hg, hgs⟩ := exists_func_of_localName hm
      obtain ⟨hi, rfl⟩ := List.getElem?_eq_some_iff.mp hf
      obtain ⟨hj, rfl⟩ := List.getElem?_eq_some_iff.mp hg
      rcases Nat.lt_or_gt_of_ne hij with hlt | hgt
      · exact hfuncs i j hi hj hlt hfs hgs
      · exact hfuncs j i hj hi hgt hgs hfs
    · intro i n k s hn hk
      obtain ⟨f, hf, hfs⟩ := exists_func_of_localName hn
      have hlocal := List.mem_flatMap.mpr ⟨f, List.mem_of_getElem? hf, hfs⟩
      exact hentities s (mem_emittedNames_of_entity hk) s hlocal rfl
  · rintro ⟨hfuncs, hentities⟩
    -- the checks see to entities and to the local names of one function
    refine ⟨nodup_emittedNames_of_verify hverify, ⟨?_, ?_⟩, ?_⟩
    · exact fun f hf => Func.nodup_locals (func_faults_of_verify hverify hf)
    · intro i j hi hj hlt s hs hs'
      obtain ⟨n, hn⟩ := exists_localName_of_mem (List.getElem?_eq_getElem hi) hs
      obtain ⟨m, hm⟩ := exists_localName_of_mem (List.getElem?_eq_getElem hj) hs'
      exact hfuncs i j n m s (Nat.ne_of_lt hlt) hn hm
    · rintro s hs _ hs' rfl
      obtain ⟨f, hf, hfs⟩ := List.mem_flatMap.mp hs'
      obtain ⟨i, hi⟩ := List.mem_iff_getElem?.mp hf
      obtain ⟨n, hn⟩ := exists_localName_of_mem hi hfs
      obtain ⟨e, he, rfl⟩ := List.mem_map.mp hs
      obtain ⟨k, hk⟩ := List.mem_iff_getElem?.mp he
      exact hentities i n k _ hn (.entity hk)

/-- Every name is defined once when no two definitions clash. -/
theorem nodup_definedNames_iff :
    (mangled p u).definedNames.Nodup ↔
      ∀ a b, a.IsDefinition → b.IsDefinition → ¬ Clash p u a b := by
  rw [nodup_definedNames_iff_apart hverify]
  constructor
  · rintro ⟨hfuncs, hentities⟩ a b hdefa hdefb hclash
    obtain ⟨s, ha, hb⟩ := exists_symbol_of_clash hclash hdefb
    cases a with
    | localName i n =>
      cases b with
      | localName j m =>
        by_cases hij : i = j
        · subst hij
          have hsame := localName_eq_of_symbol_eq hverify ha hb
          exact hclash.ne (congrArg (Named.localName i) hsame)
        · exact hfuncs i j n m s hij ha hb
      | entity k => exact hentities i n k s ha hb
      | outer name => exact hdefb
    | entity k =>
      cases hclash
      exact hdefb
    | outer name => exact hdefa
  · intro hnone
    have hlocals : ∀ i j n m, ¬ Clash p u (.localName i n) (.localName j m) :=
      fun i j n m => hnone (.localName i n) (.localName j m) trivial trivial
    constructor
    · intro i j n m s hij hn hm
      rcases clash_of_localNames hij hn hm with hclash | hclash
      · exact hlocals i j n m hclash
      · exact hlocals j i m n hclash
    · intro i n k s hn hk
      exact hnone (.localName i n) (.entity k) trivial trivial (clash_of_localEntity hn hk)

end Verified

/-- The stages after mangling define the same names. -/
theorem definedNames_afterMangling (m : CodeUnit) :
    (afterMangling p m).definedNames = m.definedNames := by
  simp only [CodeUnit.definedNames, afterMangling, UnwindStage.run, Layout.run, List.map_map,
    List.flatMap_map]
  rfl

/-- In a unit that passes the checks after mangling, different things share a symbol exactly when
they clash. The object of the unit lists every name once, and its listing labels every name once,
exactly when no two definitions clash. So does the assembly text, read as an assembler reads it, if the
unit is legible. -/
theorem same_symbol_iff_clash (hverify : verify (some (mangled p u)) = .ok ()) :
    (∀ a b s t, a ≠ b → EmittedAs p u a s → EmittedAs p u b t →
      (s = t ↔ Clash p u a b ∨ Clash p u b a)) ∧
    (∀ obj, Object.assemble p (afterMangling p (mangled p u)) = .ok obj →
      ((obj.symbols.map Symbol.name).Nodup ↔
        ∀ a b, a.IsDefinition → b.IsDefinition → ¬ Clash p u a b)) ∧
    ∀ lines, Listing.ofUnit p (afterMangling p (mangled p u)) = .ok lines →
      ((lines.filterMap Line.label?).Nodup ↔
        ∀ a b, a.IsDefinition → b.IsDefinition → ¬ Clash p u a b) ∧
      ∀ b c, Profile.ofBucket b c = .ok p →
        (afterMangling p (mangled p u)).IsLegible p.dialect →
        (((Statement.ofText (Listing.render p lines)).filterMap Statement.label?).Nodup ↔
          ∀ a b, a.IsDefinition → b.IsDefinition → ¬ Clash p u a b) := by
  refine ⟨?_, ?_, ?_⟩
  · intro a b s t hab ha hb
    constructor
    · rintro rfl
      exact clash_of_symbol_eq hverify hab ha hb
    · rintro (hclash | hclash)
      · exact symbol_eq_of_clash ha hb hclash
      · exact (symbol_eq_of_clash hb ha hclash).symm
  · intro obj hobj
    rw [Object.nodup_symbols_iff hobj, definedNames_afterMangling, nodup_definedNames_iff hverify]
  · intro lines hlines
    have hlabels : (lines.filterMap Line.label?).Nodup ↔
        ∀ a b, a.IsDefinition → b.IsDefinition → ¬ Clash p u a b := by
      rw [Listing.filterMap_label? hlines, definedNames_afterMangling,
        nodup_definedNames_iff hverify]
    refine ⟨hlabels, fun b c hp hlegible => ?_⟩
    rw [Statement.filterMap_label?_ofText (Profile.isUsual_of_ofBucket hp)
      (Listing.isLegible_of_ofUnit hlegible hlines), hlabels]

/-- Two functions with a label of the same name. -/
def sharedLabel : CodeUnit :=
  { name := "shared"
    funcs := [
      { name := "first", linkage := .global
        insts := [{ label := "exit", op := "ret", encoding := "c3" }] },
      { name := "second", linkage := .hidden
        insts := [{ label := "exit", op := "ret", encoding := "c3" }] }] }

/-- A label of one name in two functions gets two symbols, so nothing in the unit clashes, and the
assembly text defines each name once. -/
theorem shared_label_apart :
    verify (some (mangled Profile.host sharedLabel)) = .ok () ∧
      (∀ a b, a.IsDefinition → b.IsDefinition → ¬ Clash Profile.host sharedLabel a b) ∧
      ∃ text, assemblyText Profile.host (afterMangling Profile.host
          (mangled Profile.host sharedLabel)) = .ok text ∧
        ((Statement.ofText text).filterMap Statement.label?).Nodup := by
  have hverify : verify (some (mangled Profile.host sharedLabel)) = .ok () := by decide +kernel
  have hlegible : (afterMangling Profile.host
      (mangled Profile.host sharedLabel)).IsLegible Profile.host.dialect := by decide +kernel
  have hnames : (Listing.ofUnit Profile.host (afterMangling Profile.host
      (mangled Profile.host sharedLabel))).toOption.map (·.filterMap Line.label?) =
        some ["first", ".Lfirst_exit", ".Lsecond", ".Lsecond_exit"] := by decide +kernel
  cases hlines : Listing.ofUnit Profile.host (afterMangling Profile.host
      (mangled Profile.host sharedLabel)) with
  | error e =>
    rw [hlines] at hnames
    cases hnames
  | ok lines =>
    rw [hlines] at hnames
    have hlabels : lines.filterMap Line.label? =
        ["first", ".Lfirst_exit", ".Lsecond", ".Lsecond_exit"] := Option.some.inj hnames
    obtain ⟨hlisted, htext⟩ := (same_symbol_iff_clash hverify).2.2 lines hlines
    -- the label lines are all different
    have happart : ∀ a b, a.IsDefinition → b.IsDefinition →
        ¬ Clash Profile.host sharedLabel a b := by
      refine hlisted.mp ?_
      rw [hlabels]
      decide
    refine ⟨hverify, happart, Listing.render Profile.host lines, ?_,
      (htext _ _ Profile.ofTriple_host hlegible).mpr happart⟩
    rw [assemblyText, hlines]
    rfl

/-- Two functions whose names and labels are divided differently and read the same. -/
def underscoreLabels : CodeUnit :=
  { name := "underscores"
    funcs := [
      { name := "a_b", linkage := .global
        insts := [{ label := "c", op := "ret", encoding := "c3" }] },
      { name := "a", linkage := .global
        insts := [{ label := "b_c", op := "ret", encoding := "c3" }] }] }

/-- A unit in source form that passes the checks before and after mangling, in which labels of two
functions end up with one symbol, which the object, the listing and the assembly text then define
twice. -/
theorem underscore_labels_merged :
    underscoreLabels.IsSource ∧ verify (some underscoreLabels) = .ok () ∧
      verify (some (mangled Profile.host underscoreLabels)) = .ok () ∧
      EmittedAs Profile.host underscoreLabels (.localName 0 0) ".La_b_c" ∧
      EmittedAs Profile.host underscoreLabels (.localName 1 0) ".La_b_c" ∧
      (Object.assemble Profile.host (afterMangling Profile.host
        (mangled Profile.host underscoreLabels))).toOption.map (·.symbols.map Symbol.name) =
          some ["a_b", ".La_b_c", "a", ".La_b_c"] ∧
      (Listing.ofUnit Profile.host (afterMangling Profile.host
        (mangled Profile.host underscoreLabels))).toOption.map (·.filterMap Line.label?) =
          some ["a_b", ".La_b_c", "a", ".La_b_c"] ∧
      (assemblyText Profile.host (afterMangling Profile.host
        (mangled Profile.host underscoreLabels))).toOption.map
          (fun text => (Statement.ofText text).filterMap Statement.label?) =
            some ["a_b", ".La_b_c", "a", ".La_b_c"] := by
  refine ⟨by decide +kernel, by decide +kernel, by decide +kernel, ?_, ?_, by decide +kernel,
    by decide +kernel, by decide +kernel⟩
  · exact emittedAs_localName_iff.mpr ⟨_, "c", rfl, by decide +kernel, by decide +kernel⟩
  · exact emittedAs_localName_iff.mpr ⟨_, "b_c", rfl, by decide +kernel, by decide +kernel⟩

end Mangle

end CodeEmission

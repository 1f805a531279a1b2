import CodeEmission.Proofs.CodeUnit.Soundness
import CodeEmission.Proofs.CodeUnit.Source
import CodeEmission.Proofs.Platform.Host
import CodeEmission.Stage.Mangle

/-!
# Where References Lead after Mangling

Mangling rewrites the names of entities and the places that refer to them. This module follows a
reference from its spelling to the symbol it ends up with.

* `Reference` is a place of a unit that may name an entity, and `CodeUnit.nameAt?` what it spells
  there; `CodeUnit.outerNameAt?` leaves out what is a label of the function around it.
* `Mangle.nameAt?_mangled`: a reference that leaves its function becomes `Mangle.reference` of its
  spelling.
* `Mangle.reference_eq_last`: that is the symbol of the last entity with the same composed name.
* `Mangle.reference_follows_iff_last`: in a unit that passes the checks after mangling, a reference
  that spells an entity's name ends up with that entity's symbol exactly when no later entity has the
  same composed name.

Entities whose names differ can have one composed form. If one of them is hidden and the other is
not, their symbols differ and the checks see nothing wrong; references to the earlier one then lead
to the later one (`Mangle.kelvin_reference_misled`).
-/

namespace CodeEmission

/-- A text, if it is not empty. -/
def nonempty? (s : String) : Option String :=
  if s = "" then none else some s

/-- A text that is not empty stands for itself. -/
@[simp]
theorem nonempty?_eq_some_iff {s t : String} : nonempty? s = some t ↔ s = t ∧ t ≠ "" := by
  unfold nonempty?
  split
  next h =>
    constructor
    · intro hsome
      cases hsome
    · rintro ⟨rfl, hne⟩
      exact absurd h hne
  next h =>
    rw [Option.some.injEq]
    exact ⟨fun heq => ⟨heq, heq ▸ h⟩, And.left⟩

/-- A place of a unit that may refer to an entity: an operand, the personality routine of a
function, or a value of a data object. Numbers count from zero. -/
inductive Reference where
  | operand (func inst operand : Nat)
  | personality (func : Nat)
  | value (data value : Nat)
  deriving DecidableEq, Repr

/-- The linkage of an entity. -/
def Entity.linkage : Entity → Linkage
  | func f => f.linkage
  | data d => d.linkage

namespace CodeUnit

/-- What a place spells, if it refers to anything. Of operands, those of the kinds symbol and memory
refer to entities. -/
def nameAt? (u : CodeUnit) : Reference → Option String
  | .operand k i j => do
    let f ← u.funcs[k]?
    let inst ← f.insts[i]?
    let op ← inst.operands[j]?
    if op.kind = .sym ∨ op.kind = .mem then nonempty? op.sym else none
  | .personality k => do
    let f ← u.funcs[k]?
    nonempty? f.personality
  | .value k i => do
    let d ← u.data[k]?
    let v ← d.values[i]?
    nonempty? v.sym

/-- The names that take precedence over entities at a place: the labels of the function around an
operand. -/
def localsAt (u : CodeUnit) : Reference → List String
  | .operand k _ _ => (u.funcs[k]?.map Func.locals).getD []
  | _ => []

/-- What a place spells, if that is no label of the function around it. -/
def outerNameAt? (u : CodeUnit) (r : Reference) : Option String :=
  (u.nameAt? r).filter fun name => !(u.localsAt r).contains name

/-- A name that leaves its function is spelled at its place and no label there. -/
theorem outerNameAt?_eq_some_iff {u : CodeUnit} {r : Reference} {name : String} :
    u.outerNameAt? r = some name ↔ u.nameAt? r = some name ∧ name ∉ u.localsAt r := by
  simp [outerNameAt?, Option.filter_eq_some_iff]

end CodeUnit

namespace Mangle

variable {p : Profile} {u : CodeUnit}

/-- An entity with every name mangled. -/
def entity (p : Profile) (defs : List (String × String)) : Entity → Entity
  | .func f => .func (func p defs f)
  | .data d => .data (dataObject p defs d)

/-- The entities of a mangled unit are the mangled entities. -/
theorem entities_mangled :
    (mangled p u).entities = u.entities.map (entity p (definitions p u)) := by
  simp [CodeUnit.entities, mangled, Function.comp_def, entity]

/-- A mangled entity is written under its mark and composed name. -/
theorem emittedName_entity (defs : List (String × String)) (e : Entity) :
    (entity p defs e).emittedName = symbolFor p (Text.composed e.name) e.linkage := by
  -- an empty symbol can only come from an empty name, which then stands in for it
  have hfallback : ∀ name : String, ∀ l : Linkage,
      (if symbolFor p name l = "" then name else symbolFor p name l) = symbolFor p name l := by
    intro name l
    split
    next hempty =>
      rw [hempty]
      simp only [symbolFor, String.append_eq_empty_iff] at hempty
      exact hempty.2
    next => rfl
  cases e with
  | func f => exact hfallback (Text.composed f.name) f.linkage
  | data d => exact hfallback (Text.composed d.name) d.linkage

/-- The definitions of a unit are read off its entities, in their order. -/
theorem definitions_eq_map_entities :
    definitions p u =
      u.entities.map fun e =>
        (Text.composed e.name, symbolFor p (Text.composed e.name) e.linkage) := by
  simp [definitions, CodeUnit.entities, Function.comp_def, Entity.name, Entity.linkage]

/-- A name that is no label of its function has no private symbol. -/
theorem localSymbol?_eq_none (func : String) {locals : List String} {label : String}
    (h : label ∉ locals) : localSymbol? p func locals label = none := by
  simp [localSymbol?, h]

/-- A reference that leaves its function becomes the symbol its spelling refers to. -/
theorem nameAt?_mangled {r : Reference} {name : String} (h : u.outerNameAt? r = some name) :
    (mangled p u).nameAt? r = nonempty? (reference p (definitions p u) name) := by
  obtain ⟨hname, hlocal⟩ := CodeUnit.outerNameAt?_eq_some_iff.mp h
  cases r with
  | operand k i j =>
    simp only [CodeUnit.nameAt?, Option.bind_eq_bind, Option.bind_eq_some_iff] at hname
    obtain ⟨f, hf, inst, hi, op, hj, hop⟩ := hname
    split at hop
    next hkind =>
      obtain ⟨rfl, hsym⟩ := nonempty?_eq_some_iff.mp hop
      simp only [CodeUnit.localsAt, hf, Option.map_some, Option.getD_some] at hlocal
      have hnone := localSymbol?_eq_none (p := p) (Text.composed f.name) hlocal
      rcases hkind with hkind | hkind
      · simp [CodeUnit.nameAt?, mangled, func, Mangle.inst, operand, hf, hi, hj, hkind, hsym, hnone]
      · simp [CodeUnit.nameAt?, mangled, func, Mangle.inst, operand, hf, hi, hj, hkind, hsym, hnone]
    next => cases hop
  | personality k =>
    simp only [CodeUnit.nameAt?, Option.bind_eq_bind, Option.bind_eq_some_iff] at hname
    obtain ⟨f, hf, hpers⟩ := hname
    obtain ⟨rfl, hne⟩ := nonempty?_eq_some_iff.mp hpers
    simp [CodeUnit.nameAt?, mangled, func, hf, hne]
  | value k i =>
    simp only [CodeUnit.nameAt?, Option.bind_eq_bind, Option.bind_eq_some_iff] at hname
    obtain ⟨d, hd, v, hv, hsym⟩ := hname
    obtain ⟨rfl, hne⟩ := nonempty?_eq_some_iff.mp hsym
    simp [CodeUnit.nameAt?, mangled, dataObject, datum, hd, hv, hne]

/-- Of the elements of a list that pass a test, the last is found from the end. -/
theorem find?_reverse_of_getElem? {α : Type} {l : List α} {q : α → Bool} {k : Nat} {a : α}
    (hk : l[k]? = some a) (hq : q a = true) :
    ∃ j b, k ≤ j ∧ l[j]? = some b ∧ l.reverse.find? q = some b ∧ q b = true ∧
      ∀ i c, j < i → l[i]? = some c → q c = false := by
  have hsome : (l.reverse.find? q).isSome :=
    List.find?_isSome.mpr ⟨a, List.mem_reverse.mpr (List.mem_of_getElem? hk), hq⟩
  obtain ⟨b, hb⟩ := Option.isSome_iff_exists.mp hsome
  obtain ⟨hqb, after, before, hsplit, hafter⟩ := List.find?_eq_some_iff_append.mp hb
  have hl : l = before.reverse ++ b :: after.reverse := by
    rw [← List.reverse_reverse l, hsplit]
    simp
  -- the search from the end passed over what stands after `b`
  have hlater : ∀ i c, before.length < i → l[i]? = some c → q c = false := by
    intro i c hi hc
    rw [hl, List.getElem?_append_right (by simpa using Nat.le_of_lt hi), List.length_reverse,
      List.getElem?_cons, if_neg (by omega)] at hc
    simpa using hafter c (List.mem_reverse.mp (List.mem_of_getElem? hc))
  refine ⟨before.length, b, ?_, ?_, hb, hqb, hlater⟩
  · refine Nat.le_of_not_lt fun hlt => ?_
    rw [hlater k a hlt hk] at hq
    cases hq
  · rw [hl, List.getElem?_append_right (by simp)]
    simp

/-- A spelling of an entity's name refers to the last entity with the same composed name. -/
theorem reference_eq_last {k : Nat} {e : Entity} (he : u.entities[k]? = some e) :
    ∃ j e', k ≤ j ∧ u.entities[j]? = some e' ∧
      Text.composed e'.name = Text.composed e.name ∧
      reference p (definitions p u) e.name =
        symbolFor p (Text.composed e'.name) e'.linkage ∧
      ∀ i c, j < i → u.entities[i]? = some c → Text.composed c.name ≠ Text.composed e.name := by
  obtain ⟨j, e', hle, hj, hfind, hname, hlater⟩ :=
    find?_reverse_of_getElem? (q := fun c => decide (Text.composed c.name = Text.composed e.name))
      he (by simp)
  refine ⟨j, e', hle, hj, by simpa using hname, ?_, ?_⟩
  · rw [reference, definitions_eq_map_entities, ← List.map_reverse, List.find?_map]
    simp only [Function.comp_def]
    rw [hfind]
    rfl
  · intro i c hi hc
    simpa using hlater i c hi hc

/-- Two entities of a unit that passes the checks after mangling have different symbols. -/
theorem index_eq_of_symbolFor_eq (hverify : verify (some (mangled p u)) = .ok ()) {j k : Nat}
    {e e' : Entity} (he : u.entities[k]? = some e) (he' : u.entities[j]? = some e')
    (hsame : symbolFor p (Text.composed e'.name) e'.linkage =
      symbolFor p (Text.composed e.name) e.linkage) : j = k := by
  have hnodup := nodup_emittedNames_of_verify hverify
  have hnames : (mangled p u).entities.map Entity.emittedName =
      u.entities.map fun e => symbolFor p (Text.composed e.name) e.linkage := by
    rw [entities_mangled, List.map_map]
    exact List.map_congr_left fun e _ => emittedName_entity _ e
  rw [hnames] at hnodup
  refine (List.getElem?_inj ?_ hnodup).mp ?_
  · rw [List.length_map]
    exact (List.getElem?_eq_some_iff.mp he').1
  · simp [he, he', hsame]

/-- In a unit that passes the checks after mangling, a reference that spells the name of an entity
ends up with the symbol of that entity exactly when no later entity has the same composed name. -/
theorem reference_follows_iff_last (hverify : verify (some (mangled p u)) = .ok ()) {k : Nat}
    {e e' : Entity} (he : u.entities[k]? = some e) (he' : (mangled p u).entities[k]? = some e')
    {r : Reference} (hr : u.outerNameAt? r = some e.name) :
    (mangled p u).nameAt? r = some e'.emittedName ↔
      ∀ j c, k < j → u.entities[j]? = some c → Text.composed c.name ≠ Text.composed e.name := by
  have hmangled : e'.emittedName = symbolFor p (Text.composed e.name) e.linkage := by
    rw [entities_mangled, List.getElem?_map, he, Option.map_some, Option.some.injEq] at he'
    rw [← he', emittedName_entity]
  have hsymbol : e'.emittedName ≠ "" :=
    emittedName_ne_empty_of_verify hverify (List.mem_of_getElem? he')
  rw [nameAt?_mangled hr, nonempty?_eq_some_iff, hmangled, and_iff_left (hmangled ▸ hsymbol)]
  -- the reference leads to the last entity of that composed name, which may be a later one
  obtain ⟨j, c, hle, hj, hname, href, hlater⟩ := reference_eq_last (p := p) he
  rw [href]
  constructor
  · intro hsame i d hi hd
    -- the entity that the reference leads to is the spelled one, and nothing stands after it
    have hjk := index_eq_of_symbolFor_eq hverify he hj hsame
    exact hlater i d (hjk ▸ hi) hd
  · intro hlast
    rcases Nat.eq_or_lt_of_le hle with rfl | hlt
    · rw [he, Option.some.injEq] at hj
      rw [hj]
    · exact absurd hname (hlast j c hlt hj)

/-- A hidden function named by the Kelvin sign and a data object named by the letter K, which is the
composed form of that sign. The data object refers to both. -/
def kelvinPair : CodeUnit :=
  { name := "units"
    funcs := [{ name := "\u212a", linkage := .hidden, insts := [{ op := "ret" }] }]
    data := [{ name := "K", linkage := .global
               values := [{ size := 8, sym := "\u212a" }, { size := 8, sym := "K" }] }] }

/-- Both references become the data object's symbol. -/
theorem mangled_kelvinPair :
    mangled Profile.host kelvinPair =
      { name := "units"
        funcs := [{ name := "K", linkage := .hidden, insts := [{ op := "ret" }], symbol := ".LK" }]
        data := [{ name := "K", linkage := .global, symbol := "K"
                   values := [{ size := 8, sym := "K" }, { size := 8, sym := "K" }] }] } := by
  decide +kernel

/-- The reference that spells the data object's name follows it, since nothing comes later. -/
theorem kelvin_reference_followed :
    verify (some (mangled Profile.host kelvinPair)) = .ok () ∧
      (mangled Profile.host kelvinPair).nameAt? (.value 0 1) = some "K" := by
  have hverify : verify (some (mangled Profile.host kelvinPair)) = .ok () := by
    rw [mangled_kelvinPair]
    decide +kernel
  have hnone : ∀ j c, 1 < j → kelvinPair.entities[j]? = some c →
      Text.composed c.name ≠ Text.composed "K" := by
    intro j c hj hc
    rw [List.getElem?_eq_none hj] at hc
    cases hc
  have hspelled : kelvinPair.outerNameAt? (.value 0 1) = some "K" := by decide +kernel
  have hentity : (mangled Profile.host kelvinPair).entities[1]? =
      some (.data { name := "K", linkage := .global, symbol := "K"
                    values := [{ size := 8, sym := "K" }, { size := 8, sym := "K" }] }) := by
    rw [mangled_kelvinPair]
    rfl
  have hfollows := reference_follows_iff_last hverify (k := 1) rfl hentity hspelled
  exact ⟨hverify, hfollows.mpr hnone⟩

/-- A unit in source form that passes the checks before and after mangling, with a reference that
spells the first entity's name and does not end up with its symbol. -/
theorem kelvin_reference_misled :
    kelvinPair.IsSource ∧ verify (some kelvinPair) = .ok () ∧
      verify (some (mangled Profile.host kelvinPair)) = .ok () ∧
      kelvinPair.outerNameAt? (.value 0 0) = kelvinPair.entities[0]?.map Entity.name ∧
      (mangled Profile.host kelvinPair).nameAt? (.value 0 0) = some "K" ∧
      (mangled Profile.host kelvinPair).entities[0]?.map Entity.emittedName = some ".LK" := by
  rw [mangled_kelvinPair]
  decide +kernel

end Mangle

end CodeEmission

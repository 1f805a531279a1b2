import CodeEmission.CodeUnit.Decode

/-!
# Units in Source Form

A unit that was read from a document holds what the document says and nothing that only the stages
fill in. `CodeUnit.IsSource` is that property, and `CodeUnit.isSource_of_decode` and
`CodeUnit.isSource_of_load` say that reading gives no other units.
-/

namespace CodeEmission

/-- No stage has filled anything in: no section, no symbol, no unwind record. -/
def CodeUnit.IsSource (u : CodeUnit) : Prop :=
  (∀ f ∈ u.funcs, f.section_ = "" ∧ f.symbol = "" ∧ f.unwind = {}) ∧
    ∀ d ∈ u.data, d.section_ = "" ∧ d.symbol = ""

/-- Whether a unit is in source form can be computed. -/
instance (u : CodeUnit) : Decidable u.IsSource :=
  inferInstanceAs (Decidable (_ ∧ _))

namespace CodeUnit

/-- A unit from a table is in source form. -/
theorem isSource_ofTable (t : Toml.Table) : (ofTable t).IsSource := by
  constructor
  · intro f hf
    obtain ⟨table, -, rfl⟩ := List.mem_map.mp hf
    exact ⟨rfl, rfl, rfl⟩
  · intro d hd
    obtain ⟨table, -, rfl⟩ := List.mem_map.mp hd
    exact ⟨rfl, rfl⟩

/-- A unit that was read is in source form. -/
theorem isSource_of_decode {text : String} {u : CodeUnit} (h : decode text = .ok u) :
    u.IsSource := by
  unfold decode at h
  cases hdoc : Toml.Document.ofShape shape text with
  | error e => simp [hdoc, Except.map] at h
  | ok doc =>
    simp only [hdoc, Except.map, Except.ok.injEq] at h
    exact h ▸ isSource_ofTable doc.root

/-- A unit that was read from a file is in source form. -/
theorem isSource_of_load {path text : String} {u : CodeUnit} (h : load path text = .ok u) :
    u.IsSource := by
  unfold load at h
  cases hdecode : decode text with
  | error e => simp [hdecode, Except.map] at h
  | ok v =>
    simp only [hdecode, Except.map, Except.ok.injEq] at h
    have hv := isSource_of_decode hdecode
    subst h
    split
    · exact hv
    · exact hv

end CodeUnit

end CodeEmission

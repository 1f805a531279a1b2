import CodeEmission.Assembly.Listing
import CodeEmission.Proofs.CodeUnit.Soundness
import CodeEmission.Proofs.Object.Chunk

/-!
# The Names That a Unit Defines

`CodeUnit.definedNames` lists what a unit gives a name to, in the order of writing: for each function
its symbol, the labels of its instructions and those of its jump tables, and then the data objects.

* `Object.map_name_symbols`: the symbol table of an object has these names, and after them the names
  that are only referred to, each once.
* `Listing.filterMap_label?`: the label lines of a listing have these names.

So a name is defined twice in an object exactly when it is in a listing, which is when it stands
twice in the list (`Object.nodup_symbols_iff`).
-/

namespace CodeEmission

/-- The names that a function defines, in the order of writing. -/
def Func.definedNames (f : Func) : List String :=
  f.emittedName :: (f.labels ++ f.jumpTables.map JumpTable.label)

/-- The names that a unit defines, in the order of writing. -/
def CodeUnit.definedNames (u : CodeUnit) : List String :=
  u.funcs.flatMap Func.definedNames ++ u.data.map DataObject.emittedName

/-- The names of a function without faults are its symbol and its local names. -/
theorem Func.definedNames_of_faultless {f : Func} (h : f.faults = []) :
    f.definedNames = f.emittedName :: f.locals := by
  rw [definedNames, ← tableLabels_eq_of_faultless h]

namespace Chunk

/-- The names of the symbols of a chunk. -/
def names (c : Chunk) : List String :=
  c.symbols.map Symbol.name

/-- The names of joined chunks. -/
@[simp]
theorem names_append (a b : Chunk) : (a.append b).names = a.names ++ b.names := by
  rw [names, symbols_append, List.map_append]
  rfl

/-- What is read off chunks one after another is read off the members of a list one after another. -/
theorem flatMap_of_concat {α β ε : Type} {f : Nat → α → Except ε Chunk} {g : α → List β}
    (view : Chunk → List β) (hempty : view {} = [])
    (happend : ∀ a b, view (a.append b) = view a ++ view b)
    (hmember : ∀ loc a piece, f loc a = .ok piece → view piece = g a) {loc : Nat} {as : List α}
    {c : Chunk} (h : concat f loc as = .ok c) : view c = as.flatMap g := by
  induction as generalizing loc c with
  | nil =>
    rw [concat_nil_eq_ok_iff.mp h]
    exact hempty
  | cons a rest ih =>
    obtain ⟨piece, later, hpiece, hlater, rfl⟩ := concat_cons_eq_ok_iff.mp h
    rw [happend, hmember loc a piece hpiece, ih hlater, List.flatMap_cons]

/-- The names in the chunk of a list are those of its members. -/
theorem names_of_concat {α ε : Type} {f : Nat → α → Except ε Chunk} {g : α → List String}
    (hmember : ∀ loc a piece, f loc a = .ok piece → piece.names = g a) {loc : Nat} {as : List α}
    {c : Chunk} (h : concat f loc as = .ok c) : c.names = as.flatMap g :=
  flatMap_of_concat names rfl names_append hmember h

end Chunk

section Names

variable {p : Profile} {loc : Nat} {c : Chunk}

/-- The label of an instruction, if it has one. -/
def Inst.labels (inst : Inst) : List String :=
  if inst.label = "" then [] else [inst.label]

/-- The labels of a function are those of its instructions. -/
theorem Func.labels_eq_flatMap (f : Func) : f.labels = f.insts.flatMap Inst.labels := by
  rw [labels]
  induction f.insts with
  | nil => rfl
  | cons inst rest ih =>
    rw [List.map_cons, List.filter_cons, List.flatMap_cons, ih, Inst.labels]
    by_cases hlabel : inst.label = ""
    · simp [hlabel]
    · simp [hlabel]

/-- The body of a function names its labels. -/
theorem names_of_body {f : Func} (h : Chunk.concat (instChunk p) loc f.insts.zipIdx = .ok c) :
    c.names = f.labels := by
  have hmember : ∀ loc (numbered : Inst × Nat) piece, instChunk p loc numbered = .ok piece →
      piece.names = numbered.1.labels := by
    rintro loc ⟨inst, i⟩ piece hpiece
    obtain ⟨bytes, relocs, -, -, rfl⟩ := instChunk_eq_ok hpiece
    rw [Chunk.names, Inst.labelSymbols, Inst.labels]
    split
    · rfl
    · rfl
  rw [Chunk.names_of_concat hmember h, f.labels_eq_flatMap, ← List.flatMap_map Prod.fst Inst.labels,
    List.zipIdx_map_fst]

/-- A function's chunk has the names that the function defines. -/
theorem names_of_funcChunk {f : Func} (h : funcChunk p loc f = .ok c) :
    c.names = f.definedNames := by
  obtain ⟨fill, start, body, tables, -, -, -, -, hbody, htables, rfl⟩ := funcChunk_eq_ok h
  have hmember : ∀ loc (t : JumpTable) piece, tableChunk p body.symbols loc t = .ok piece →
      piece.names = [t.label] := by
    intro loc t piece hpiece
    obtain ⟨entries, -, rfl⟩ := tableChunk_eq_ok hpiece
    rfl
  have htableNames : tables.names = f.jumpTables.map JumpTable.label := by
    rw [Chunk.names_of_concat hmember htables, List.map_eq_flatMap]
  simp only [Chunk.names_append, names_of_body hbody, htableNames]
  simp [Chunk.names, Func.textSymbol, Func.definedNames]

/-- A data object's chunk has the name of the data object alone. -/
theorem names_of_dataChunk {d : DataObject} (h : dataChunk p loc d = .ok c) :
    c.names = [d.emittedName] := by
  obtain ⟨fill, start, body, -, -, -, -, hbody, rfl⟩ := dataChunk_eq_ok h
  have hbodyNames : body.names = [] := by
    rw [Chunk.names, symbols_of_values hbody]
    rfl
  simp only [Chunk.names_append, hbodyNames]
  rfl

end Names

/-- Erasing repetitions leaves none. -/
theorem nodup_eraseDups {α : Type} [BEq α] [LawfulBEq α] (as : List α) : as.eraseDups.Nodup := by
  match as with
  | [] => simp
  | a :: rest =>
    rw [List.eraseDups_cons, List.nodup_cons, List.mem_eraseDups]
    have hshorter := List.length_filter_le (fun b => !b == a) rest
    exact ⟨by simp, nodup_eraseDups _⟩
termination_by as.length
decreasing_by
  rw [List.length_cons]
  omega

namespace Object

/-- The names of the symbols that are only referred to, in order. -/
theorem map_name_undefinedSymbols (defined : List Symbol) (refs : List String) :
    (undefinedSymbols defined refs).map Symbol.name =
      (refs.filter fun r => !(defined.any fun s => s.name = r)).eraseDups.mergeSort
        (fun a b => decide (a ≤ b)) := by
  rw [undefinedSymbols, List.map_map]
  exact List.map_id _

/-- Of the names that are referred to, those have an entry of their own that are not defined. -/
theorem mem_map_name_undefinedSymbols {defined : List Symbol} {refs : List String} {name : String} :
    name ∈ (undefinedSymbols defined refs).map Symbol.name ↔
      name ∈ refs ∧ name ∉ defined.map Symbol.name := by
  rw [map_name_undefinedSymbols, List.mem_mergeSort, List.mem_eraseDups, List.mem_filter]
  simp

/-- The symbols that are only referred to have different names, none of which is defined. -/
theorem nodup_undefinedSymbols (defined : List Symbol) (refs : List String) :
    ((undefinedSymbols defined refs).map Symbol.name).Nodup ∧
      ∀ s ∈ undefinedSymbols defined refs, s.name ∉ defined.map Symbol.name := by
  constructor
  · rw [map_name_undefinedSymbols, (List.mergeSort_perm _ _).nodup_iff]
    exact nodup_eraseDups _
  · intro s hs
    exact (mem_map_name_undefinedSymbols.mp (List.mem_map_of_mem hs)).2

/-- The chunks of functions and data objects have the names that the unit defines. -/
theorem map_name_of_chunks {p : Profile} {u : CodeUnit} {text data : Chunk}
    (htext : Chunk.concat (funcChunk p) 0 u.funcs = .ok text)
    (hdata : Chunk.concat (dataChunk p) 0 u.data = .ok data) :
    (text.symbols ++ data.symbols).map Symbol.name = u.definedNames := by
  have hfuncs : text.names = u.funcs.flatMap Func.definedNames :=
    Chunk.names_of_concat (f := funcChunk p) (fun _ _ _ => names_of_funcChunk) htext
  have hdatas : data.names = u.data.flatMap fun d => [d.emittedName] :=
    Chunk.names_of_concat (f := dataChunk p) (fun _ _ _ => names_of_dataChunk) hdata
  rw [List.map_append, ← Chunk.names, ← Chunk.names, hfuncs, hdatas, ← List.map_eq_flatMap]
  rfl

/-- The symbol table of an object names what the unit defines and then, each once, what it only
refers to. -/
theorem map_name_symbols {p : Profile} {u : CodeUnit} {obj : Object}
    (h : assemble p u = .ok obj) :
    ∃ undefined, obj.symbols.map Symbol.name = u.definedNames ++ undefined ∧ undefined.Nodup ∧
      ∀ name ∈ undefined, name ∉ u.definedNames := by
  obtain ⟨text, data, htext, hdata, rfl⟩ := assemble_eq_ok h
  have hdefined := map_name_of_chunks htext hdata
  obtain ⟨hnodup, hfresh⟩ := nodup_undefinedSymbols (text.symbols ++ data.symbols)
    (references text data)
  rw [hdefined] at hfresh
  refine ⟨_, ?_, hnodup, ?_⟩
  · rw [List.map_append, hdefined]
  · intro name hname
    obtain ⟨s, hs, rfl⟩ := List.mem_map.mp hname
    exact hfresh s hs

/-- A name stands twice in a symbol table when the unit defines it twice. -/
theorem nodup_symbols_iff {p : Profile} {u : CodeUnit} {obj : Object}
    (h : assemble p u = .ok obj) :
    (obj.symbols.map Symbol.name).Nodup ↔ u.definedNames.Nodup := by
  obtain ⟨undefined, hnames, hnodup, hfresh⟩ := map_name_symbols h
  rw [hnames, List.nodup_append]
  constructor
  · exact And.left
  · intro hdefined
    refine ⟨hdefined, hnodup, ?_⟩
    rintro name hname _ hname' rfl
    exact hfresh name hname' hname

end Object

end CodeEmission

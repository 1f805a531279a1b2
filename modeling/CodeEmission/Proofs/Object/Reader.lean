import CodeEmission.Object.Unpack

/-!
# Readers of the Container

A reader takes a value off the front of its bytes. Two properties say how far it looks.

* `Reads read a bytes`: the reader takes `a` off `bytes`, whatever follows them.
* `Stable read`: what the reader took off some bytes it takes off them as well when more follow. It
  decides by the bytes that it consumes and not by how many there are.

A stable reader that reads a value off some bytes finds nothing in fewer of them
(`Stable.eq_none_of_cut`), since what it found there it would find in all of them and leave the
missing ones over.

The rest of the module shows that every reader of the container is stable, record by record. The one
place where the number of bytes matters is `skip`, whose fuel it is; more fuel changes no answer
(`skip_append`).
-/

namespace CodeEmission.Unpack

variable {α β : Type}

/-- A reader takes a value off bytes and leaves what follows them. -/
def Reads (read : Reader α) (a : α) (bytes : List UInt8) : Prop :=
  ∀ rest, read (bytes ++ rest) = some (a, rest)

/-- What a reader takes off bytes it takes off them also when more bytes follow. -/
def Stable (read : Reader α) : Prop :=
  ∀ bytes a rest, read bytes = some (a, rest) →
    ∀ more, read (bytes ++ more) = some (a, rest ++ more)

/-- A value that is read off bytes is not read off a part of them that lacks the end. -/
theorem Stable.eq_none_of_cut {read : Reader α} (hstable : Stable read) {a : α}
    {front back : List UInt8} (hreads : Reads read a (front ++ back)) (hback : back ≠ []) :
    read front = none := by
  refine Option.eq_none_iff_forall_ne_some.mpr ?_
  rintro ⟨b, rest⟩ hfront
  -- on all the bytes the same value would be found, with the end left over
  have hlonger : read (front ++ back) = some (b, rest ++ back) := hstable front b rest hfront back
  have hwhole : read (front ++ back) = some (a, []) := by
    have hnothing := hreads []
    rwa [List.append_nil] at hnothing
  have hrest : rest ++ back = [] :=
    (Prod.mk.inj (Option.some.inj (hlonger.symm.trans hwhole))).2
  exact hback (List.append_eq_nil_iff.mp hrest).2

namespace Stable

theorem pure (a : α) : Stable fun bytes => some (a, bytes) := by
  intro bytes b rest h more
  obtain ⟨rfl, rfl⟩ := Prod.mk.inj (Option.some.inj h)
  rfl

theorem fail : Stable (α := α) fun _ => none := by
  intro bytes a rest h
  cases h

/-- Changing the value that was read keeps a reader stable. -/
theorem map {read : Reader α} (hread : Stable read) (f : α → β) :
    Stable fun bytes => (read bytes).map fun (a, rest) => (f a, rest) := by
  intro bytes b rest h more
  obtain ⟨⟨a, rest'⟩, hfound, heq⟩ := Option.map_eq_some_iff.mp h
  obtain ⟨rfl, rfl⟩ := Prod.mk.inj heq
  simp only [hread bytes a rest' hfound more, Option.map_some]

/-- A choice between stable readers that does not look at the bytes is stable. -/
theorem ite {c : Prop} [Decidable c] {yes no : Reader α} (hyes : Stable yes) (hno : Stable no) :
    Stable fun bytes => if c then yes bytes else no bytes := by
  by_cases hc : c
  · simpa only [if_pos hc] using hyes
  · simpa only [if_neg hc] using hno

/-- A reader that goes on after another one is stable when both are. -/
theorem andThen {read : Reader α} {k : α → Reader β} {whole : Reader β} (hread : Stable read)
    (hnext : ∀ a, Stable (k a)) (hnone : ∀ bytes, read bytes = none → whole bytes = none)
    (hsome : ∀ bytes a rest, read bytes = some (a, rest) → whole bytes = k a rest) :
    Stable whole := by
  intro bytes b rest h more
  cases hfound : read bytes with
  | none =>
    rw [hnone bytes hfound] at h
    cases h
  | some found =>
    obtain ⟨a, rest'⟩ := found
    rw [hsome bytes a rest' hfound] at h
    rw [hsome _ a _ (hread bytes a rest' hfound more)]
    exact hnext a rest' b rest h more

/-- A reader that starts with one byte is stable when it is after each of them. -/
theorem of_cons {read : Reader α} (hnil : read [] = none)
    (hcons : ∀ code, Stable fun rest => read (code :: rest)) : Stable read := by
  intro bytes a rest h more
  cases bytes with
  | nil =>
    rw [hnil] at h
    cases h
  | cons code after => exact hcons code after a rest h more

/-- A reader that takes nil for a fixed value is stable when it is after every other byte. -/
theorem of_nil_or {read : Reader α} {a : α} (hempty : read [] = none)
    (hnil : ∀ rest, read (0xc0 :: rest) = some (a, rest))
    (hother : ∀ code, code ≠ 0xc0 → Stable fun rest => read (code :: rest)) : Stable read := by
  refine .of_cons hempty fun code => ?_
  by_cases hcode : code = 0xc0
  · subst hcode
    simp only [hnil]
    exact .pure a
  · exact hother code hcode

end Stable

/-! ## Numbers, texts and lengths -/

theorem stable_take (n : Nat) : Stable (take n) := by
  intro bytes front rest h more
  unfold take at h ⊢
  dsimp only at h ⊢
  split at h
  next hlength =>
    obtain ⟨rfl, rfl⟩ := Prod.mk.inj (Option.some.inj h)
    have hle : n ≤ bytes.length := by
      rw [List.length_take] at hlength
      omega
    rw [List.take_append_of_le_length hle, List.drop_append_of_le_length hle, if_pos hlength]
  next => cases h

theorem stable_number (width : Nat) : Stable (number width) :=
  (stable_take width).map ofBigEndian

theorem stable_signed (width : Nat) : Stable (signed width) :=
  (stable_number width).map fun n => Int.bmod n (Nat.pow 2 (8 * width))

theorem stable_integer : Stable integer := by
  refine .of_cons rfl fun code => ?_
  -- the code alone decides between the forms, so each is taken on its own
  have hunsigned := fun width => (stable_number width).map fun n => (n : Int)
  exact .ite (.pure _) <| .ite (.pure _) <| .ite (.pure _) <| .ite (hunsigned 1) <|
    .ite (hunsigned 2) <| .ite (hunsigned 4) <| .ite (hunsigned 8) <| .ite (stable_signed 1) <|
    .ite (stable_signed 2) <| .ite (stable_signed 4) <| .ite (stable_signed 8) .fail

theorem stable_bytesLength (code : UInt8) : Stable (bytesLength code) :=
  .ite (.pure _) <| .ite (stable_number 1) <| .ite (stable_number 2) <|
    .ite (stable_number 4) .fail

theorem stable_mapLength (code : UInt8) : Stable (mapLength code) :=
  .ite (.pure _) <| .ite (stable_number 2) <| .ite (stable_number 4) .fail

theorem stable_arrayLength (code : UInt8) : Stable (arrayLength code) :=
  .ite (.pure _) <| .ite (stable_number 2) <| .ite (stable_number 4) .fail

theorem stable_binary : Stable binary := by
  refine .of_nil_or rfl (fun _ => rfl) fun code hcode => ?_
  refine .andThen (stable_bytesLength code) stable_take ?_ ?_
  · intro bytes h
    simp only [binary, h]
  · intro bytes n rest h
    simp only [binary, h]

theorem stable_text : Stable text :=
  stable_binary.map Text.textOfBytes

/-! ## Values that are passed over -/

/-- The code of an array is not that of a map. -/
theorem mapLength_eq_none_of_arrayLength {code : UInt8} {bytes rest : List UInt8} {n : Nat}
    (h : arrayLength code bytes = some (n, rest)) (bytes' : List UInt8) :
    mapLength code bytes' = none := by
  -- the codes of the two kinds lie in ranges that do not meet
  unfold arrayLength at h
  unfold mapLength
  grind

theorem mapLength_eq_none_of_bytesLength {code : UInt8} {bytes rest : List UInt8} {n : Nat}
    (h : bytesLength code bytes = some (n, rest)) (bytes' : List UInt8) :
    mapLength code bytes' = none := by
  unfold bytesLength at h
  unfold mapLength
  grind

theorem arrayLength_eq_none_of_bytesLength {code : UInt8} {bytes rest : List UInt8} {n : Nat}
    (h : bytesLength code bytes = some (n, rest)) (bytes' : List UInt8) :
    arrayLength code bytes' = none := by
  unfold bytesLength at h
  unfold arrayLength
  grind

theorem stable_skipAfter (code : UInt8) : Stable (skipAfter code) := by
  have hwidth : ∀ n : Nat, Stable fun rest => some ((n, 0), rest) := fun n => .pure (n, 0)
  have hextension := fun width => (stable_number width).map fun n => (n + 1, 0)
  refine .ite (hwidth 0) <| .ite (hwidth 1) <| .ite (hwidth 2) <| .ite (hwidth 4) <|
    .ite (hwidth 8) <| .ite (hwidth 2) <| .ite (hwidth 3) <| .ite (hwidth 5) <| .ite (hwidth 9) <|
    .ite (hwidth 17) <| .ite (hextension 1) <| .ite (hextension 2) <| .ite (hextension 4) ?_
  -- the three readers are tried in turn; where a later one succeeds the earlier ones never do,
  -- however many bytes there are
  intro bytes a rest h more
  dsimp only at h ⊢
  cases hmap : mapLength code bytes with
  | some found =>
    rw [hmap] at h
    obtain ⟨rfl, rfl⟩ := Prod.mk.inj (Option.some.inj h)
    rw [stable_mapLength code bytes _ _ hmap more]
  | none =>
    rw [hmap] at h
    dsimp only at h
    cases harray : arrayLength code bytes with
    | some found =>
      rw [harray] at h
      obtain ⟨rfl, rfl⟩ := Prod.mk.inj (Option.some.inj h)
      rw [mapLength_eq_none_of_arrayLength harray, stable_arrayLength code bytes _ _ harray more]
    | none =>
      rw [harray] at h
      obtain ⟨⟨n, rest'⟩, hbytes, heq⟩ := Option.map_eq_some_iff.mp h
      obtain ⟨rfl, rfl⟩ := Prod.mk.inj heq
      rw [mapLength_eq_none_of_bytesLength hbytes, arrayLength_eq_none_of_bytesLength hbytes,
        stable_bytesLength code bytes n rest' hbytes more]
      rfl

/-- Values are skipped alike when more bytes follow and with more fuel. -/
theorem skip_append {fuel fuel' pending : Nat} {bytes rest : List UInt8} (hfuel : fuel ≤ fuel')
    (h : skip fuel pending bytes = some rest) (more : List UInt8) :
    skip fuel' pending (bytes ++ more) = some (rest ++ more) := by
  -- by the fuel of the shorter input; the longer one never has less
  induction fuel generalizing fuel' pending bytes with
  | zero =>
    cases pending with
    | zero =>
      rw [skip] at h ⊢
      rw [Option.some.inj h]
    | succ pending => cases h
  | succ fuel ih =>
    cases pending with
    | zero =>
      rw [skip] at h ⊢
      rw [Option.some.inj h]
    | succ pending =>
      cases bytes with
      | nil => cases h
      | cons code after =>
        obtain ⟨fuel', rfl⟩ : ∃ n, fuel' = n + 1 := ⟨fuel' - 1, by omega⟩
        rw [skip] at h
        rw [List.cons_append, skip]
        split at h
        · cases h
        next n pending' after' hafter =>
          split at h
          · cases h
          next front after'' htake =>
            rw [stable_skipAfter code after _ _ hafter more]
            dsimp only
            rw [stable_take n after' _ _ htake more]
            exact ih (Nat.le_of_succ_le_succ hfuel) h

/-! ## Lists and records -/

theorem stable_times {read : Reader α} (hread : Stable read) (n : Nat) :
    Stable (times read n) := by
  induction n with
  | zero => exact .pure []
  | succ n ih =>
    -- one value and then the others, with the first put before them at the end
    refine .andThen hread (fun a => ih.map (a :: ·)) ?_ ?_
    · intro bytes h
      simp only [times, h]
    · intro bytes a rest h
      simp only [times, h]
      cases times read n rest <;> rfl

theorem stable_texts (old : List String) : Stable (texts old) := by
  refine .of_nil_or rfl (fun _ => rfl) fun code hcode => ?_
  refine .andThen (stable_arrayLength code) (stable_times stable_text) ?_ ?_
  · intro bytes h
    simp only [texts, h]
  · intro bytes n rest h
    simp only [texts, h]

theorem stable_fill (zero : α) {read : α → Reader α} (hread : ∀ a, Stable (read a)) (n : Nat)
    (old : List α) : Stable (fill zero read n old) := by
  induction n generalizing old with
  | zero => exact .pure old
  | succ n ih =>
    refine .andThen (hread (old.headD zero)) (fun a => (ih old.tail).map (a :: ·)) ?_ ?_
    · intro bytes h
      simp only [fill, h]
    · intro bytes a rest h
      simp only [fill, h]
      cases fill zero read n old.tail rest <;> rfl

theorem stable_slots {zero : α} {read : α → Reader α} (hread : ∀ a, Stable (read a))
    (old : Slots α) : Stable (slots zero read old) := by
  refine .of_nil_or rfl (fun _ => rfl) fun code hcode => ?_
  refine .andThen (stable_arrayLength code)
    (fun n => (stable_fill zero hread n old.items).map (Slots.mk · n)) ?_ ?_
  · intro bytes h
    simp only [slots, h]
  · intro bytes n rest h
    simp only [slots, h]

/-- A field is read alike from longer input. -/
def Field.IsStable (f : Field α) : Prop :=
  ∀ a, Stable (f.read a)

/-- A field whose value is read on its own by a stable reader is stable. -/
theorem Field.IsStable.of {read : Reader β} (hread : Stable read) (name : String)
    (store : α → β → α) : (Field.of name read store).IsStable :=
  fun a => hread.map (store a)

/-- A field whose value is read into the one that is there by a stable reader is stable. -/
theorem Field.IsStable.within {read : β → Reader β} (hread : ∀ b, Stable (read b)) (name : String)
    (get : α → β) (store : α → β → α) : (Field.within name read get store).IsStable :=
  fun a => (hread (get a)).map (store a)

theorem stable_orderedFields {fields : List (Field α)} (hfields : ∀ f ∈ fields, f.IsStable)
    (a : α) : Stable (orderedFields fields a) := by
  induction fields generalizing a with
  | nil => exact .pure a
  | cons f fields ih =>
    obtain ⟨hf, hrest⟩ := List.forall_mem_cons.mp hfields
    refine .andThen (hf a) (ih hrest) ?_ ?_
    · intro bytes h
      simp only [orderedFields, h]
    · intro bytes b rest h
      simp only [orderedFields, h]

section Records

variable {fields : List (Field α)} (hfields : ∀ f ∈ fields, f.IsStable)

include hfields

theorem stable_namedFields (n : Nat) (a : α) : Stable (namedFields fields n a) := by
  induction n generalizing a with
  | zero => exact .pure a
  | succ n ih =>
    intro bytes b rest h more
    rw [namedFields] at h ⊢
    split at h
    · cases h
    next key after hkey =>
      rw [stable_binary bytes key after hkey more]
      dsimp only
      -- after the name comes a known field or a value to skip
      split at h
      next f hfind =>
        split at h
        · cases h
        next c after' hread =>
          have hf : f.IsStable := hfields f (List.mem_of_find?_eq_some hfind)
          rw [hf a after c after' hread more]
          exact ih c after' b rest h more
      next =>
        split at h
        · cases h
        next after' hskip =>
          have hfuel : after.length ≤ (after ++ more).length := by
            rw [List.length_append]
            omega
          rw [skip_append hfuel hskip more]
          exact ih a after' b rest h more

theorem stable_record (zero old : α) : Stable (record zero fields old) := by
  refine .of_nil_or rfl (fun _ => rfl) fun code hcode => ?_
  -- a record is a map of names, or an array with its fields in order
  intro bytes a rest h more
  simp only [record] at h ⊢
  cases hmap : mapLength code bytes with
  | some found =>
    obtain ⟨n, rest'⟩ := found
    rw [hmap] at h
    rw [stable_mapLength code bytes n rest' hmap more]
    exact stable_namedFields hfields n old rest' a rest h more
  | none =>
    rw [hmap] at h
    dsimp only at h
    split at h
    · cases h
    next n rest' harray =>
      -- the code is that of an array, so it is that of no map, also with more bytes
      rw [mapLength_eq_none_of_arrayLength harray, stable_arrayLength code bytes n rest' harray more]
      dsimp only
      split at h
      next hzero =>
        obtain ⟨rfl, rfl⟩ := Prod.mk.inj (Option.some.inj h)
        rw [if_pos hzero]
      next hzero =>
        rw [if_neg hzero]
        split at h
        next hall =>
          rw [if_pos hall]
          exact stable_orderedFields hfields old rest' a rest h more
        next => cases h

end Records

end CodeEmission.Unpack

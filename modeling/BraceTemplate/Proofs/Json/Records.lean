import BraceTemplate.Json.Record
import BraceTemplate.Proofs.Table
import Mathlib.Data.List.Forall2

/- Reading back what is written. A value that was read from a tree is read again from its own tree
   (`Json.Tree.value?_again`). Of a list, a table or a record that is written by a writer, each member
   can be read by itself: a reader of the whole gives the whole back when the reader of the members
   gives every member back (`Json.Tree.list?_written`, `Json.Tree.table?_written`), and the fields of a
   record come back in their declared order, those that were left out as missing
   (`Json.Tree.record?_written`). -/
namespace BraceTemplate
namespace Json

/-- What a thing is written as is read as the same thing. -/
def Survives {α : Type} (read : Tree → Option α) (write : α → Value) (x : α) : Prop :=
  read (Tree.ofValue (write x)) = some x

/-- A value that is read from its own tree: a key occurs once in each of its objects. -/
def Value.Settled (v : Value) : Prop := Survives Tree.value? id v

/-- A value that a field which may be missing can hold: it is settled, and not written as null. -/
def Value.Given (v : Value) : Prop := Tree.optional? Tree.value? (Tree.ofValue v) = some (some v)

namespace Tree
variable {α β : Type}

/-! Members of lists. -/

theorem mem_all? {read : α → Option β} {xs : List α} {ys : List β} (h : all? read xs = some ys)
    {y : β} (hy : y ∈ ys) : ∃ x ∈ xs, read x = some y := by
  induction xs generalizing ys with
  | nil =>
    cases h
    cases hy
  | cons x xs ih =>
    rw [all?] at h
    split at h
    · rename_i z zs hz hzs
      cases h
      rcases List.mem_cons.mp hy with rfl | hy
      · exact ⟨x, List.mem_cons_self, hz⟩
      · obtain ⟨x', hx', hread⟩ := ih hzs hy
        exact ⟨x', List.mem_cons_of_mem x hx', hread⟩
    · cases h

theorem all?_eq_some {read : α → Option β} {xs : List α} {ys : List β} :
    all? read xs = some ys ↔ List.Forall₂ (fun x y => read x = some y) xs ys := by
  induction xs generalizing ys with
  | nil => simp [all?, eq_comm]
  | cons x xs ih =>
    rw [all?, List.forall₂_cons_left_iff]
    cases hx : read x with
    | none => simp
    | some y =>
      cases hxs : all? read xs with
      | none => simp [← ih, hxs]
      | some ys' => simp [← ih, hxs, eq_comm]

theorem all?_map {write : β → α} {read : α → Option β} {ys : List β}
    (h : ∀ y ∈ ys, read (write y) = some y) : all? read (ys.map write) = some ys :=
  all?_eq_some.mpr (List.forall₂_map_left_iff.mpr (List.forall₂_same.mpr h))

/-! Members of what is read. -/

theorem orElse_cases {read : Tree → Option α} {missing x : α} {t : Option Tree}
    (h : orElse read missing t = some x) : x = missing ∨ ∃ t, read t = some x := by
  cases t with
  | none => exact .inl (Option.some.inj h).symm
  | some t => exact .inr ⟨t, h⟩

theorem mem_list? {read : Tree → Option α} {t : Tree} {xs : List α} (h : list? read t = some xs) :
    ∀ x ∈ xs, ∃ t, read t = some x := by
  unfold list? at h
  intro x hx
  split at h
  · obtain ⟨t, -, ht⟩ := mem_all? h hx
    exact ⟨t, ht⟩
  · cases h

theorem mem_tableOrNone {read : Tree → Option α} {t : Option Tree}
    {table : { table : List (String × α) // Table.Distinct table }}
    (h : tableOrNone read t = some table) : ∀ e ∈ table.val, ∃ t, read t = some e.2 := by
  rcases orElse_cases h with rfl | ⟨t, h⟩
  · exact List.forall_mem_nil _
  · unfold table? at h
    split at h
    · obtain ⟨entries, hentries, rfl⟩ := Option.map_eq_some_iff.mp h
      intro e he
      obtain ⟨f, -, hf⟩ := mem_all? hentries ((Table.mem_insertAll he).resolve_left List.not_mem_nil)
      obtain ⟨v, hv, rfl⟩ := Option.map_eq_some_iff.mp hf
      exact ⟨f.2, hv⟩
    · cases h

theorem optional?_eq_some {read : Tree → Option α} {t : Tree} {x : α} :
    optional? read t = some (some x) ↔ t ≠ .null ∧ read t = some x := by
  cases t <;> simp [optional?]

/-- What a field that may be missing holds is read. -/
theorem mem_maybe {read : Tree → Option α} {t : Option Tree} {o : Option α}
    (h : maybe read t = some o) : ∀ x ∈ o, ∃ t, t ≠ .null ∧ read t = some x := by
  rintro x rfl
  cases t with
  | none => cases h
  | some t => exact ⟨t, optional?_eq_some.mp h⟩

/-! Trees of values. -/

theorem ofItems_eq_map (items : List Value) : ofItems items = items.map ofValue := by
  induction items with
  | nil => rfl
  | cons v items ih => rw [ofItems, ih, List.map_cons]

theorem ofFields_eq_map (fields : List (String × Value)) :
    ofFields fields = fields.map fun f => (f.1, ofValue f.2) := by
  induction fields with
  | nil => rfl
  | cons f fields ih => rw [ofFields, ih, List.map_cons]

theorem itemValues?_ofItems {items : List Value} (h : ∀ v ∈ items, v.Settled) :
    itemValues? (ofItems items) = some items := by
  induction items with
  | nil => rfl
  | cons v items ih =>
    obtain ⟨hv, hitems⟩ := List.forall_mem_cons.mp h
    rw [ofItems, itemValues?, show value? (ofValue v) = some v from hv, ih hitems]

theorem fieldValues?_ofFields {fields : List (String × Value)} (h : ∀ f ∈ fields, f.2.Settled) :
    fieldValues? (ofFields fields) = some fields := by
  induction fields with
  | nil => rfl
  | cons f fields ih =>
    obtain ⟨hf, hfields⟩ := List.forall_mem_cons.mp h
    rw [ofFields, fieldValues?, show value? (ofValue f.2) = some f.2 from hf, ih hfields]

mutual
/-- A value that was read is read again from its own tree. -/
theorem value?_again (t : Tree) (v : Value) (h : value? t = some v) : v.Settled := by
  cases t with
  | array items =>
    rw [value?] at h
    obtain ⟨vs, hvs, rfl⟩ := Option.map_eq_some_iff.mp h
    have hitems := itemValues?_again items vs hvs
    rw [Value.Settled, Survives, id, ofValue, value?, itemValues?_ofItems hitems, Option.map_some]
  | object fields =>
    rw [value?] at h
    obtain ⟨fs, hfs, rfl⟩ := Option.map_eq_some_iff.mp h
    have hfields : ∀ f ∈ Table.ofEntries fs, f.2.Settled := fun f hf =>
      (Table.mem_insertAll hf).elim nofun (fieldValues?_again fields fs hfs f)
    rw [Value.Settled, Survives, id, ofValue, value?, fieldValues?_ofFields hfields, Option.map_some,
      Table.ofEntries_of_distinct (Table.distinct_ofEntries fs)]
  | unusable => cases h
  | null | bool | int | float | string =>
    cases h
    rfl

theorem itemValues?_again (ts : List Tree) (vs : List Value) (h : itemValues? ts = some vs) :
    ∀ v ∈ vs, v.Settled := by
  cases ts with
  | nil =>
    cases h
    exact List.forall_mem_nil _
  | cons t ts =>
    rw [itemValues?] at h
    split at h
    · rename_i v vs hv hvs
      cases h
      exact List.forall_mem_cons.mpr ⟨value?_again t v hv, itemValues?_again ts vs hvs⟩
    · cases h

theorem fieldValues?_again (ts : List (String × Tree)) (fs : List (String × Value))
    (h : fieldValues? ts = some fs) : ∀ f ∈ fs, f.2.Settled := by
  match ts with
  | [] =>
    cases h
    exact List.forall_mem_nil _
  | (k, t) :: ts =>
    rw [fieldValues?] at h
    split at h
    · rename_i v fs hv hfs
      cases h
      exact List.forall_mem_cons.mpr ⟨value?_again t v hv, fieldValues?_again ts fs hfs⟩
    · cases h
end

/-- What is not read from null is not written as null. -/
theorem ofValue_ne_null {t : Tree} {v : Value} (h : value? t = some v) (ht : t ≠ .null) :
    ofValue v ≠ .null := by
  cases t with
  | null => exact absurd rfl ht
  | unusable => cases h
  | array items =>
    rw [value?] at h
    obtain ⟨vs, -, rfl⟩ := Option.map_eq_some_iff.mp h
    nofun
  | object fields =>
    rw [value?] at h
    obtain ⟨fs, -, rfl⟩ := Option.map_eq_some_iff.mp h
    nofun
  | bool | int | float | string =>
    cases h
    nofun

/-- The value of a field that may be missing is a value of such a field again. -/
theorem maybe_value?_again {t : Option Tree} {o : Option Value} (h : maybe value? t = some o) :
    ∀ v ∈ o, v.Given := by
  intro v hv
  obtain ⟨t, ht, hread⟩ := mem_maybe h v hv
  exact optional?_eq_some.mpr ⟨ofValue_ne_null hread ht, value?_again t v hread⟩

/-- So are the values of a list in such a field. -/
theorem maybe_values?_again {t : Option Tree} {o : Option (List Value)}
    (h : maybe (list? value?) t = some o) : ∀ vs ∈ o, ∀ v ∈ vs, v.Settled := by
  intro vs hvs v hv
  obtain ⟨t, -, hread⟩ := mem_maybe h vs hvs
  obtain ⟨t', ht'⟩ := mem_list? hread v hv
  exact value?_again t' v ht'

/-! Members of what is written. -/

variable {read : Tree → Option α} {write : α → Value}

/-- A list comes back when its members do. -/
theorem list?_written {xs : List α} (h : ∀ x ∈ xs, Survives read write x) :
    Survives (list? read) (fun xs => .array (xs.map write)) xs := by
  rw [Survives, ofValue, ofItems_eq_map, List.map_map]
  exact all?_map h

/-- A table comes back, its keys in the same order, when its values do. -/
theorem table?_written (table : { table : List (String × α) // Table.Distinct table })
    (h : ∀ e ∈ table.val, Survives read write e.2) :
    Survives (table? read) (fun table => .object (table.val.map fun e => (e.1, write e.2))) table := by
  have hentries : all? (fun f : String × Tree => (read f.2).map (f.1, ·))
      (table.val.map fun e => (e.1, ofValue (write e.2))) = some table.val :=
    all?_map fun e he => by rw [show read (ofValue (write e.2)) = some e.2 from h e he, Option.map_some]
  rw [Survives, ofValue, ofFields_eq_map, List.map_map, table?]
  refine (congrArg _ hentries).trans ?_
  exact congrArg some (Subtype.ext (Table.ofEntries_of_distinct table.property))

/-- A field that may be missing comes back, unless what it holds is written as null. -/
theorem maybe_written {x : Option α}
    (h : ∀ y ∈ x, optional? read (ofValue (write y)) = some (some y)) :
    maybe read ((x.map write).map ofValue) = some x := by
  cases x with
  | none => rfl
  | some y => exact h y rfl

/-- What is written for a field is read, whatever stands for a missing one. -/
theorem orElse_written {missing x : α} (h : Survives read write x) :
    orElse read missing (some (ofValue (write x))) = some x := h

theorem needed_written {x : α} (h : Survives read write x) :
    needed read (some (ofValue (write x))) = some x := h

theorem string_written (s : String) : Survives string? .string s := rfl

theorem bool_written (b : Bool) : Survives bool? .bool b := rfl

theorem strings_written (xs : List String) : Survives (list? string?) Value.ofStrings xs :=
  list?_written fun _ _ => rfl

theorem maybe_string_written (x : Option String) :
    maybe string? ((x.map Value.string).map ofValue) = some x :=
  maybe_written fun _ _ => rfl

theorem maybe_count_written (x : Option Nat) :
    maybe count? ((x.map Value.ofNat).map ofValue) = some x :=
  maybe_written fun _ _ => rfl

theorem maybe_value_written {x : Option Value} (h : ∀ v ∈ x, v.Given) :
    maybe value? (x.map ofValue) = some x := by
  have hwritten : maybe value? ((x.map id).map ofValue) = some x := maybe_written h
  simpa using hwritten

theorem maybe_values_written {x : Option (List Value)} (h : ∀ vs ∈ x, ∀ v ∈ vs, v.Settled) :
    maybe (list? value?) ((x.map Value.array).map ofValue) = some x := by
  refine maybe_written fun vs hvs => optional?_eq_some.mpr ⟨nofun, ?_⟩
  have hwritten : Survives (list? value?) (fun vs => .array (vs.map id)) vs :=
    list?_written (h vs hvs)
  rwa [Survives, List.map_id] at hwritten

/-! Records. -/

/-- The fields of a record that is written, as trees. -/
def written (fields : List (String × Option Value)) : List (String × Tree) :=
  fields.filterMap fun f => f.2.map fun v => (f.1, ofValue v)

theorem ofValue_ofFields (fields : List (String × Option Value)) :
    ofValue (Value.ofFields fields) = .object (written fields) := by
  rw [Value.ofFields, ofValue, ofFields_eq_map, List.map_filterMap]
  simp only [Option.map_map]
  rfl

theorem filter_written (names : List String) (fields : List (String × Option Value)) :
    (written fields).filter (fun f => names.contains f.1) =
      written (fields.filter fun f => names.contains f.1) := by
  rw [written, written, List.filter_filterMap, List.filterMap_filter]
  refine List.filterMap_congr fun f _ => ?_
  obtain ⟨key, value⟩ := f
  cases value <;> simp [Option.filter]

/-- The fields are those that are declared, in their order: each name that is written is among the names
    of one field only. -/
def Declares (declared : List (List String)) (fields : List (String × Option Value)) : Prop :=
  List.Forall₂ (fun names f => fields.filter (fun g => names.contains g.1) = [f]) declared fields

theorem field?_written {names : List String} {fields : List (String × Option Value)}
    {f : String × Option Value} (h : fields.filter (fun g => names.contains g.1) = [f]) :
    field? names (written fields) = some (f.2.map ofValue) := by
  obtain ⟨key, value⟩ := f
  rw [field?, filter_written, h]
  cases value <;> rfl

/-- The fields of a record come back, those that were left out as missing. -/
theorem record?_written {declared : List (List String)} {fields : List (String × Option Value)}
    (h : Declares declared fields) :
    record? declared (ofValue (Value.ofFields fields)) = some (fields.map (·.2.map ofValue)) := by
  rw [ofValue_ofFields, record?, all?_eq_some, List.forall₂_map_right_iff]
  exact h.imp fun _ _ => field?_written

end Tree
end Json
end BraceTemplate
